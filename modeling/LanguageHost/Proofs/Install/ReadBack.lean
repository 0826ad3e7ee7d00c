import LanguageHost.Install.Installer
import LanguageHost.Proofs.Package.Reading
import LanguageHost.Proofs.Program.Log

/-! What an install reads back once its commands have run: the package that it was asked for, in the version
that it was asked for, as the package manager has recorded it. -/
namespace LanguageHost

/-- The file can be read, and its text is this. -/
def Host.Reads (h : Host) (file : Path) (text : String) : Prop :=
  ∃ content, (h.answer (.readFile file)).1 = .ok content ∧ Utf8.toString? content = some text

end LanguageHost

namespace LanguageHost.Install
open Program (Logged)

/-- The query for a Python package. -/
def pipQuery (dir : Path) (p : Package) : Command :=
  .ofArgs (Pip.python dir).text ["-m", "pip", "show", p.name]

/-- The calls have found the package in its version in the record of its package manager. -/
inductive ReadBack (dir : Path) (p : Package) : List Occasion → Prop
  | npm {h h' : Host} {declared installed : String} {j j' dependencies range : Json} :
      p.ecosystem = .npm →
      h.Reads (dir / "package.json") declared → Json.ofText? declared = some j →
      j.canonical.get? "dependencies" = some dependencies → dependencies.get? p.name = some range →
      h'.Reads (dir / "node_modules" / p.name / "package.json") installed →
      Json.ofText? installed = some j' → j'.canonical.get? "version" = some (.str p.version) →
      ReadBack dir p [⟨h, .readFile (dir / "package.json")⟩,
        ⟨h', .readFile (dir / "node_modules" / p.name / "package.json")⟩]
  | cargo {h : Host} {text key : String} {ledger : Json} {members : List (String × Json)}
      {rest : List String} :
      p.ecosystem = .cargo →
      h.Reads (dir / ".crates.toml") text → Toml.ofText? text = some ledger →
      ledger.get? "v1" = some (.obj members) → key ∈ members.map Prod.fst →
      Text.words key = p.name :: p.version :: rest →
      ReadBack dir p [⟨h, .readFile (dir / ".crates.toml")⟩]
  | pypi {h : Host} :
      p.ecosystem = .pypi →
      (h.execute (pipQuery dir p) .quiet).1.outcome = .ok () →
      Pip.shownVersion? (String.intercalate "\n"
        ((h.execute (pipQuery dir p) .quiet).1.lines.take captureLimit)) = some p.version →
      ReadBack dir p [⟨h, .run (pipQuery dir p) .quiet⟩]
  | gem {h : Host} {kind : FileKind} :
      p.ecosystem = .gem →
      (h.answer (.kind (dir / "specifications" / (p.name ++ "-" ++ p.version ++ ".gemspec")) true)).1 =
        .ok kind →
      ReadBack dir p
        [⟨h, .kind (dir / "specifications" / (p.name ++ "-" ++ p.version ++ ".gemspec")) true⟩]
  | golang {h : Host} {text line : String} {rest : List (List Char)} :
      p.ecosystem = .golang →
      h.Reads (dir / "go.mod") text → line ∈ Text.lines text →
      Text.wordsOf (Golang.dropRequire (Text.trimmed line.toList).length (Text.trimmed line.toList)) =
        p.name.toList :: p.version.toList :: rest →
      ReadBack dir p [⟨h, .readFile (dir / "go.mod")⟩]

variable {log : List Occasion} {t t' : Files} {o o' : Operation} {dir file : Path} {p : Package}

/-! The calls that read. -/

theorem logged_readText {text : String} (made : Logged log t (Program.readText file) (.ok text) t') :
    ∃ h, log = [⟨h, .readFile file⟩] ∧ h.Reads file text := by
  obtain ⟨whole, rest, content, t₁, rfl, asked, onward⟩ := Program.logged_bind made
  obtain ⟨h, -, rfl, rfl, -⟩ := Program.logged_ask asked
  cases answer : (h.answer (.readFile file)).1 with
  | error e =>
      rw [answer] at onward
      cases onward
  | ok content =>
      rw [answer] at onward
      dsimp only at onward
      split at onward
      · next read =>
          cases onward
          exact ⟨h, rfl, content, answer, read⟩
      · cases onward

theorem logged_readJson {j : Json} (made : Logged log t ((Npm.readJson file).run.run o) (.ok j, o') t') :
    ∃ h text j₀, log = [⟨h, .readFile file⟩] ∧ h.Reads file text ∧ Json.ofText? text = some j₀ ∧
      j = j₀.canonical := by
  obtain ⟨whole, rest, r, o₁, t₁, rfl, read, onward⟩ := Installing.logged_bind_ok made
  obtain ⟨answer, same, lifted⟩ := Installing.Tells.logged_lift read
  cases same
  cases r with
  | error e => cases onward
  | ok text =>
      obtain ⟨h, rfl, reads⟩ := logged_readText lifted
      dsimp only at onward
      split at onward
      · next j₀ parsed =>
          cases onward
          exact ⟨h, text, j₀, rfl, reads, parsed, rfl⟩
      · cases onward

theorem logged_capture_ok {c : Command} {mode : RunMode} {output : String}
    (made : Logged log t (capture c mode) (.ok output) t') :
    ∃ h, log = [⟨h, .run c mode⟩] ∧ (h.execute c mode).1.outcome = .ok () ∧
      output = String.intercalate "\n" ((h.execute c mode).1.lines.take captureLimit) := by
  obtain ⟨h, -, rfl, -, answer⟩ := logged_capture made
  cases outcome : (h.execute c mode).1.outcome with
  | error e =>
      rw [outcome] at answer
      cases answer
  | ok u =>
      rw [outcome] at answer
      exact ⟨h, rfl, outcome, Except.ok.inj answer⟩

theorem logged_readOrFail {text reason : String}
    (made : Logged log t ((Backend.readOrFail p file reason).run.run o) (.ok text, o') t') :
    ∃ h, log = [⟨h, .readFile file⟩] ∧ h.Reads file text := by
  obtain ⟨whole, rest, r, o₁, t₁, rfl, read, onward⟩ := Installing.logged_bind_ok made
  obtain ⟨answer, same, lifted⟩ := Installing.Tells.logged_lift read
  cases same
  cases r with
  | error e => cases onward
  | ok text =>
      cases onward
      rw [List.append_nil]
      exact logged_readText lifted

/-! What each package manager's verification has found. -/

section verify
variable (pinned : p.version ≠ latest) (plain : p.repository = none)

include pinned in
theorem not_isLatest : ¬ p.isLatest = true := by simpa [Package.isLatest] using pinned

include pinned plain in
theorem readBack_npm (kind : p.ecosystem = .npm)
    (made : Logged log t ((Npm.verify dir p).run.run o) (.ok (), o') t') : ReadBack dir p log := by
  obtain ⟨first, rest, manifest, o₁, t₁, rfl, read, onward⟩ := Installing.logged_bind_ok made
  obtain ⟨h, declared, j, rfl, reads, parsed, rfl⟩ := logged_readJson read
  dsimp only at onward
  split at onward
  · cases onward
  · next listed =>
      obtain ⟨range, there⟩ := Option.ne_none_iff_exists'.mp (by simpa only [Option.isNone_iff_eq_none] using listed)
      obtain ⟨dependencies, under, there⟩ := Option.bind_eq_some_iff.mp there
      rw [if_neg (by simp [not_isLatest pinned, plain])] at onward
      obtain ⟨second, last, installed, o₂, t₂, rfl, read, compared⟩ := Installing.logged_bind_ok onward
      rw [Installing.run_tryCatch] at read
      obtain ⟨tried, handled, ⟨r, o₃⟩, t₃, rfl, read, caught⟩ := Program.logged_bind read
      cases r with
      | error e => cases caught
      | ok installed =>
          cases caught
          obtain ⟨h', text, j', rfl, reads', parsed', rfl⟩ := logged_readJson read
          dsimp only at compared
          split at compared
          · next found =>
              cases compared
              obtain ⟨version, version_there, told⟩ := Option.bind_eq_some_iff.mp found
              cases version <;> cases told
              exact .npm kind reads parsed under there reads' parsed' version_there
          · cases compared

/-- The ledger's version of a name stands in one of its keys. -/
theorem exists_key {ledger : Json} {name version : String}
    (found : Cargo.ledgerVersion? ledger name = some version) :
    ∃ members key rest, ledger.get? "v1" = some (.obj members) ∧ key ∈ members.map Prod.fst ∧
      Text.words key = name :: version :: rest := by
  obtain ⟨key, there, entry⟩ := List.mem_filterMap.mp (Table.mem_of_lookup found)
  unfold Cargo.ledgerEntry? at entry
  split at entry
  · next rest words =>
      cases entry
      split at there
      · next members v1 => exact ⟨members, key, _, v1, List.mem_mergeSort.mp there, words⟩
      · cases there
  · cases entry

include pinned plain in
theorem readBack_cargo (kind : p.ecosystem = .cargo)
    (made : Logged log t ((Cargo.verify dir p).run.run o) (.ok (), o') t') : ReadBack dir p log := by
  obtain ⟨first, rest, text, o₁, t₁, rfl, read, onward⟩ := Installing.logged_bind_ok made
  obtain ⟨h, rfl, reads⟩ := logged_readOrFail read
  split at onward
  · cases onward
  · next ledger parsed =>
      split at onward
      · cases onward
      · next version found =>
          split at onward
          · next fits =>
              cases onward
              obtain rfl : version = p.version := by simpa [not_isLatest pinned, plain] using fits
              obtain ⟨members, key, rest, v1, there, words⟩ := exists_key found
              exact .cargo kind reads parsed v1 there words
          · cases onward

include pinned plain in
theorem readBack_pypi (kind : p.ecosystem = .pypi)
    (made : Logged log t ((Pip.verify dir p).run.run o) (.ok (), o') t') : ReadBack dir p log := by
  obtain ⟨first, rest, shown, o₁, t₁, rfl, asked, onward⟩ := Installing.logged_bind_ok made
  obtain ⟨answer, same, lifted⟩ := Installing.Tells.logged_lift asked
  cases same
  cases shown with
  | error e => cases onward
  | ok output =>
      obtain ⟨h, rfl, outcome, rfl⟩ := logged_capture_ok lifted
      dsimp only at onward
      split at onward
      · cases onward
      · next version found =>
          split at onward
          · next fits =>
              cases onward
              obtain rfl : version = p.version := by simpa [not_isLatest pinned, plain] using fits
              exact .pypi kind outcome found
          · cases onward

include pinned in
theorem readBack_gem (kind : p.ecosystem = .gem)
    (made : Logged log t ((Gem.verify dir p).run.run o) (.ok (), o') t') : ReadBack dir p log := by
  unfold Gem.verify at made
  dsimp only at made
  rw [if_neg (not_isLatest pinned)] at made
  obtain ⟨first, rest, there, o₁, t₁, rfl, looked, onward⟩ := Installing.logged_bind_ok made
  obtain ⟨answer, same, lifted⟩ := Installing.Tells.logged_lift looked
  cases same
  obtain ⟨asked, last, found, t₂, rfl, asked', told⟩ := Program.logged_bind lifted
  obtain ⟨h, -, rfl, rfl, -⟩ := Program.logged_ask asked'
  cases told
  cases answer : (h.answer (.kind (dir / "specifications" / (p.name ++ "-" ++ p.version ++ ".gemspec"))
      true)).1 with
  | error e =>
      rw [answer] at onward
      cases onward
  | ok kind' =>
      rw [answer] at onward
      cases onward
      exact .gem kind answer

include pinned in
theorem readBack_golang (kind : p.ecosystem = .golang) (wanted : Golang.moduleVersion p = p.version)
    (made : Logged log t ((Golang.verify dir p).run.run o) (.ok (), o') t') : ReadBack dir p log := by
  obtain ⟨first, rest, text, o₁, t₁, rfl, read, onward⟩ := Installing.logged_bind_ok made
  obtain ⟨h, rfl, reads⟩ := logged_readOrFail read
  split at onward
  · cases onward
  · next version found =>
      split at onward
      · next fits =>
          cases onward
          obtain rfl : version = p.version := by
            simpa [not_isLatest pinned, wanted] using fits
          obtain ⟨line, there, entry⟩ := List.mem_filterMap.mp (Table.mem_of_lookup found)
          unfold Golang.requirement? at entry
          dsimp only at entry
          split at entry
          · next module version rest words =>
              obtain ⟨named, pinned_to⟩ := Prod.mk.inj (Option.some.inj entry)
              exact .golang kind reads there (words.trans <| by
                rw [← named, ← pinned_to, String.toList_ofList, String.toList_ofList])
          · cases entry
      · cases onward

end verify

/-! The backends. -/

theorem logged_packageOf {x : Package → Installing α} {r : Except Error α × Operation}
    (made : Logged log t ((Backend.packageOf (.package p) >>= x).run.run o) r t') :
    Logged log t ((x p).run.run o) r t' := made

/-- An install that its package manager's backend makes of a package has read that package back last. -/
theorem exists_readBack {b : Backend} (pinned : p.version ≠ latest) (plain : p.repository = none)
    (wanted : Golang.moduleVersion p = p.version) (chosen : Backend.ofMethod (.package p) dir = .ok b)
    (made : Logged log t ((b.install (.package p)).run.run o) (.ok (), o') t') :
    ∃ ran verifying, log = ran ++ verifying ∧ ReadBack dir p verifying := by
  cases kind : p.ecosystem <;> simp only [Backend.ofMethod, kind] at chosen <;> cases chosen
  case npm =>
    obtain ⟨ran, rest, _, _, _, rfl, _, verified⟩ := Installing.logged_bind_ok (logged_packageOf made)
    exact ⟨ran, rest, rfl, readBack_npm pinned plain kind verified⟩
  case cargo =>
    obtain ⟨ran, rest, _, _, _, rfl, _, verified⟩ := Installing.logged_bind_ok (logged_packageOf made)
    exact ⟨ran, rest, rfl, readBack_cargo pinned plain kind verified⟩
  case pypi =>
    obtain ⟨wrote, rest, _, _, _, rfl, _, onward⟩ := Installing.logged_bind_ok (logged_packageOf made)
    obtain ⟨ran, rest', _, _, _, rfl, _, verified⟩ := Installing.logged_bind_ok onward
    exact ⟨wrote ++ ran, rest', by rw [List.append_assoc], readBack_pypi pinned plain kind verified⟩
  case gem =>
    obtain ⟨wrote, rest, _, _, _, rfl, _, onward⟩ := Installing.logged_bind_ok (logged_packageOf made)
    obtain ⟨ran, rest', _, _, _, rfl, _, verified⟩ := Installing.logged_bind_ok onward
    exact ⟨wrote ++ ran, rest', by rw [List.append_assoc], readBack_gem pinned kind verified⟩
  case golang =>
    obtain ⟨got, rest, _, _, _, rfl, _, onward⟩ := Installing.logged_bind_ok (logged_packageOf made)
    obtain ⟨ran, rest', _, _, _, rfl, _, verified⟩ := Installing.logged_bind_ok onward
    exact ⟨got ++ ran, rest', by rw [List.append_assoc], readBack_golang pinned kind wanted verified⟩

/-- What a backend adds to an environment is in order. -/
theorem sorted_binaryEnv {m : InstallMethod} {b : Backend} (chosen : Backend.ofMethod m dir = .ok b) :
    Table.Sorted b.binaryEnv := by
  have none : Table.Sorted ([] : Table String) := List.Pairwise.nil
  unfold Backend.ofMethod at chosen
  split at chosen
  · split at chosen <;> cases chosen
    case h_4 => exact List.pairwise_pair.mpr (show "GEM_HOME" < "GEM_PATH" by decide)
    all_goals exact none
  · cases chosen; exact none
  · cases chosen; exact none
  · cases chosen

end LanguageHost.Install
