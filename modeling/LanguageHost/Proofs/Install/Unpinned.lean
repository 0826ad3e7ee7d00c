import LanguageHost.Proofs.Install.Pinned
import LanguageHost.Proofs.Package.Spelling

/-! What an install reads back of a package of no version in particular. A dependency, a key of the ledger and
the answer to a query are of the package itself. The specification of a gem may be one of another gem whose
name goes on behind a hyphen, and the requirement of a module one of another module whose name begins with
`require`, or no requirement. -/
namespace LanguageHost

namespace Text

theorem afterStart?_isSome {start cs : List Char} (h : (afterStart? start cs).isSome) :
    ∃ rest, cs = start ++ rest := by
  obtain ⟨rest, after⟩ := Option.isSome_iff_exists.mp h
  exact ⟨rest, afterStart?_eq after⟩

/-- A beginning and an end of a text, the one ending in a character that is not in the other. -/
theorem exists_between {start ending s : String} (starts : startsWith start s = true)
    (ends : endsWith ending s = true) (apart : ∀ c ∈ start.toList.getLast?, c ∉ ending.toList) :
    ∃ inner, s = start ++ inner ++ ending := by
  obtain ⟨back, front_back⟩ := afterStart?_isSome starts
  obtain ⟨front, reversed⟩ := afterStart?_isSome ends
  have both : start.toList ++ back = front.reverse ++ ending.toList := by
    rw [← front_back, ← List.reverse_inj, reversed, List.reverse_append, List.reverse_reverse]
  have whole : ∀ inner, back = inner ++ ending.toList → s = start ++ String.ofList inner ++ ending := by
    intro inner same
    rw [← String.toList_inj, front_back, same]
    simp [String.toList_append]
  rcases List.append_eq_append_iff.mp both with ⟨inner, -, same⟩ | ⟨shared, begins, same⟩
  · exact ⟨_, whole inner same⟩
  · cases last : shared.getLast? with
    | none =>
        obtain rfl := List.getLast?_eq_none_iff.mp last
        exact ⟨_, whole [] same.symm⟩
    | some c =>
        refine absurd ?_ (apart c ?_)
        · rw [same]
          exact List.mem_append_left _ (List.mem_of_getLast? last)
        · rw [begins, List.getLast?_append, last]
          rfl

end Text

namespace Golang

/-- What is written in front of the requirements that `dropRequire` leaves. -/
def requires (count : Nat) : List Char := (List.replicate count "require".toList).flatten

theorem exists_requires (fuel : Nat) (cs : List Char) : ∃ count, cs = requires count ++ dropRequire fuel cs := by
  induction fuel generalizing cs with
  | zero => exact ⟨0, rfl⟩
  | succ fuel ih =>
      rw [dropRequire]
      split
      · next rest after =>
          obtain ⟨count, same⟩ := ih rest
          refine ⟨count + 1, ?_⟩
          rw [Text.afterStart?_eq after, requires, List.replicate_succ, List.flatten_cons, List.append_assoc]
          exact congrArg _ same
      · exact ⟨0, rfl⟩

/-- The words that tell what a line of `go.mod` is about, where it is not a module of a block. -/
def directives : List String :=
  ["module", "go", "toolchain", "godebug", "require", "exclude", "replace", "retract", "tool", "ignore"]

/-- The line requires the module, alone in a block or behind the word for it. -/
def Requires (line module : String) : Prop :=
  ∃ version rest, (module ∉ directives ∧ Text.words (Text.trim line) = module :: version :: rest) ∨
    Text.words (Text.trim line) = "require" :: module :: version :: rest

/-- A line that is read as a requirement requires the module, or begins with `require` more than once or
with a word that goes on behind it, or is about something else that is called as the module. -/
theorem requires_or_misread {line module version : String} (read : requirement? line = some (module, version)) :
    Requires line module ∨ ∃ count rest more, (count ≠ 0 ∨ module ∈ directives) ∧
      Text.trimmed line.toList = requires count ++ rest ∧
      Text.wordsOf rest = module.toList :: version.toList :: more := by
  unfold requirement? at read
  dsimp only at read
  split at read
  · next m v more words =>
      obtain ⟨rfl, rfl⟩ := Prod.mk.inj (Option.some.inj read)
      rw [String.toList_ofList, String.toList_ofList]
      obtain ⟨count, text⟩ := exists_requires (Text.trimmed line.toList).length (Text.trimmed line.toList)
      by_cases odd : count ≠ 0 ∨ String.ofList m ∈ directives
      · exact .inr ⟨count, _, more, odd, text, words⟩
      · obtain ⟨single, module⟩ := not_or.mp odd
        obtain rfl := not_not.mp single
        refine .inl ⟨String.ofList v, more.map String.ofList, .inl ⟨module, ?_⟩⟩
        rw [Text.words, Text.trim, String.toList_ofList, text, requires, List.replicate_zero, List.flatten_nil,
          List.nil_append, words]
        rfl
  · cases read

end Golang

namespace Gem

/-- The file that a version of a gem is recorded by. -/
def specification (name version : String) : String := name ++ "-" ++ version ++ ".gemspec"

theorem exists_specification {name file : String}
    (fits : (Text.startsWith (name ++ "-") file && Text.endsWith ".gemspec" file) = true) :
    ∃ version, file = specification name version := by
  obtain ⟨starts, ends⟩ := Bool.and_eq_true_iff.mp fits
  refine Text.exists_between starts ends fun c last => ?_
  rw [String.toList_append, List.getLast?_append] at last
  obtain rfl : '-' = c := by simpa using last
  decide

theorem specification_inj {name version version' : String}
    (same : specification name version = specification name version') : version = version' :=
  String.append_right_inj _ |>.mp (String.append_left_inj _ |>.mp same)

end Gem

namespace Install
open Program (Logged)

/-- The call by which a package of no version in particular is read back. -/
def readingBack (dir : Path) (p : Package) (h : Host) : Occasion :=
  match p.ecosystem with
  | .npm => ⟨h, .readFile (dir / "package.json")⟩
  | .cargo => ⟨h, .readFile (dir / ".crates.toml")⟩
  | .pypi => ⟨h, .run (pipQuery dir p) .quiet⟩
  | .gem => ⟨h, .list (dir / "specifications")⟩
  | .golang | .github => ⟨h, .readFile (dir / "go.mod")⟩

/-- The record on a machine shows the package itself, at some version. -/
inductive Shows (dir : Path) (p : Package) (h : Host) : Prop
  | npm {declared : String} {j dependencies range : Json} (kind : p.ecosystem = .npm)
      (reads : h.Reads (dir / "package.json") declared) (parsed : Json.ofText? declared = some j)
      (under : j.canonical.get? "dependencies" = some dependencies)
      (there : dependencies.get? p.name = some range)
  | cargo {text key version : String} {ledger : Json} {members : List (String × Json)} {rest : List String}
      (kind : p.ecosystem = .cargo) (reads : h.Reads (dir / ".crates.toml") text)
      (parsed : Toml.ofText? text = some ledger) (under : ledger.get? "v1" = some (.obj members))
      (there : key ∈ members.map Prod.fst) (words : Text.words key = p.name :: version :: rest)
  | pypi {version : String} (kind : p.ecosystem = .pypi)
      (knows : (h.execute (pipQuery dir p) .quiet).1.outcome = .ok ())
      (tells : Pip.shownVersion? (String.intercalate "\n"
        ((h.execute (pipQuery dir p) .quiet).1.lines.take captureLimit)) = some version)
  | gem {files : List String} {version : String} {c : Char} (kind : p.ecosystem = .gem)
      (listed : (h.answer (.list (dir / "specifications"))).1 = .ok files)
      (there : Gem.specification p.name version ∈ files) (first : version.toList.head? = some c)
      (digit : Text.isDigit c = true)
  | golang {text line : String} (kind : p.ecosystem = .golang) (reads : h.Reads (dir / "go.mod") text)
      (there : line ∈ Text.lines text) (requires : Golang.Requires line p.name)

/-- The record on a machine does not show the package, but something else that is taken for it. -/
inductive Misleads (dir : Path) (p : Package) (h : Host) : Prop
  | gem {files : List String} {rest : String} (kind : p.ecosystem = .gem)
      (listed : (h.answer (.list (dir / "specifications"))).1 = .ok files)
      (others : ∀ version c, Gem.specification p.name version ∈ files → version.toList.head? = some c →
        Text.isDigit c = false)
      (there : Gem.specification p.name rest ∈ files)
  | golang {text line version : String} {count : Nat} {rest : List Char} {more : List (List Char)}
      (kind : p.ecosystem = .golang) (reads : h.Reads (dir / "go.mod") text)
      (others : ∀ line ∈ Text.lines text, ¬ Golang.Requires line p.name) (there : line ∈ Text.lines text)
      (odd : count ≠ 0 ∨ p.name ∈ Golang.directives)
      (begins : Text.trimmed line.toList = Golang.requires count ++ rest)
      (words : Text.wordsOf rest = p.name.toList :: version.toList :: more)

variable {log : List Occasion} {t t' : Files} {o o' : Operation} {dir file : Path} {p : Package} {h : Host}

theorem reads_inj {text text' : String} (one : h.Reads file text) (other : h.Reads file text') : text = text' := by
  obtain ⟨content, answer, read⟩ := one
  obtain ⟨content', answer', read'⟩ := other
  obtain rfl := Except.ok.inj (answer.symm.trans answer')
  exact Option.some.inj (read.symm.trans read')

/-- A record that misleads shows nothing of the package. -/
theorem Misleads.not_shows (misleads : Misleads dir p h) : ¬ Shows dir p h := by
  intro shows
  cases misleads with
  | gem kind listed others there =>
      cases shows with
      | gem kind' listed' there' first digit =>
          obtain rfl := Except.ok.inj (listed.symm.trans listed')
          cases digit.symm.trans (others _ _ there' first)
      | npm kind' | cargo kind' | pypi kind' | golang kind' => cases kind.symm.trans kind'
  | golang kind reads others there =>
      cases shows with
      | golang kind' reads' there' requires =>
          obtain rfl := reads_inj reads reads'
          exact others _ there' requires
      | npm kind' | cargo kind' | pypi kind' | gem kind' => cases kind.symm.trans kind'

/-! What each package manager's verification has found. -/

section verify
variable (unpinned : p.isLatest = true)
include unpinned

theorem shows_npm (kind : p.ecosystem = .npm)
    (made : Logged log t ((Npm.verify dir p).run.run o) (.ok (), o') t') :
    ∃ h, log = [readingBack dir p h] ∧ Shows dir p h := by
  obtain ⟨first, rest, manifest, o₁, t₁, rfl, read, onward⟩ := Installing.logged_bind_ok made
  obtain ⟨h, declared, j, rfl, reads, parsed, rfl⟩ := logged_readJson read
  dsimp only at onward
  split at onward
  · cases onward
  · next listed =>
      obtain ⟨range, there⟩ :=
        Option.ne_none_iff_exists'.mp (by simpa only [Option.isNone_iff_eq_none] using listed)
      obtain ⟨dependencies, under, there⟩ := Option.bind_eq_some_iff.mp there
      rw [if_pos (.inl unpinned)] at onward
      cases onward
      refine ⟨h, ?_, .npm kind reads parsed under there⟩
      rw [readingBack, kind]
      rfl

theorem shows_cargo (kind : p.ecosystem = .cargo)
    (made : Logged log t ((Cargo.verify dir p).run.run o) (.ok (), o') t') :
    ∃ h, log = [readingBack dir p h] ∧ Shows dir p h := by
  obtain ⟨first, rest, text, o₁, t₁, rfl, read, onward⟩ := Installing.logged_bind_ok made
  obtain ⟨h, rfl, reads⟩ := logged_readOrFail read
  split at onward
  · cases onward
  · next ledger parsed =>
      split at onward
      · cases onward
      · next version found =>
          rw [if_pos (.inl unpinned)] at onward
          cases onward
          obtain ⟨members, key, rest, v1, there, words⟩ := exists_key found
          refine ⟨h, ?_, .cargo kind reads parsed v1 there words⟩
          rw [readingBack, kind]
          rfl

theorem shows_pypi (kind : p.ecosystem = .pypi)
    (made : Logged log t ((Pip.verify dir p).run.run o) (.ok (), o') t') :
    ∃ h, log = [readingBack dir p h] ∧ Shows dir p h := by
  obtain ⟨first, rest, shown, o₁, t₁, rfl, asked, onward⟩ := Installing.logged_bind_ok made
  obtain ⟨answer, same, lifted⟩ := Installing.Tells.logged_lift asked
  cases same
  cases shown with
  | error e => cases onward
  | ok output =>
      obtain ⟨h, rfl, outcome, rfl⟩ := logged_capture_ok lifted
      dsimp only at onward
      split at onward
      · cases onward
      · next version found =>
          rw [if_pos (.inl unpinned)] at onward
          cases onward
          refine ⟨h, ?_, .pypi kind outcome found⟩
          rw [readingBack, kind]
          rfl

theorem shows_or_misleads_gem (kind : p.ecosystem = .gem)
    (made : Logged log t ((Gem.verify dir p).run.run o) (.ok (), o') t') :
    ∃ h, log = [readingBack dir p h] ∧ (Shows dir p h ∨ Misleads dir p h) := by
  unfold Gem.verify at made
  dsimp only at made
  rw [if_pos unpinned] at made
  obtain ⟨first, rest, listing, o₁, t₁, rfl, asked, onward⟩ := Installing.logged_bind_ok made
  obtain ⟨h, rfl, answer⟩ := Installing.Tells.logged_lift_ask asked
  obtain rfl := Except.ok.inj answer
  cases listed : (h.answer (.list (dir / "specifications"))).1 with
  | error e =>
      rw [listed] at onward
      cases onward
  | ok files =>
      rw [listed] at onward
      dsimp only at onward
      split at onward
      · next fits =>
          cases onward
          obtain ⟨file, there, fit⟩ := List.any_eq_true.mp fits
          obtain ⟨rest, rfl⟩ := Gem.exists_specification fit
          refine ⟨h, ?_, ?_⟩
          · rw [readingBack, kind]
            rfl
          · by_cases own : ∃ version c, Gem.specification p.name version ∈ files ∧
                version.toList.head? = some c ∧ Text.isDigit c = true
            · obtain ⟨version, c, there, first, digit⟩ := own
              exact .inl (.gem kind listed there first digit)
            · refine .inr (.gem kind listed (fun version c there first => ?_) there)
              exact Bool.eq_false_iff.mpr fun digit => own ⟨version, c, there, first, digit⟩
      · cases onward

theorem shows_or_misleads_golang (kind : p.ecosystem = .golang)
    (made : Logged log t ((Golang.verify dir p).run.run o) (.ok (), o') t') :
    ∃ h, log = [readingBack dir p h] ∧ (Shows dir p h ∨ Misleads dir p h) := by
  obtain ⟨first, rest, text, o₁, t₁, rfl, read, onward⟩ := Installing.logged_bind_ok made
  obtain ⟨h, rfl, reads⟩ := logged_readOrFail read
  split at onward
  · cases onward
  · next version found =>
      rw [if_pos (.inl unpinned)] at onward
      cases onward
      obtain ⟨line, there, entry⟩ := List.mem_filterMap.mp (Table.mem_of_lookup found)
      refine ⟨h, ?_, ?_⟩
      · rw [readingBack, kind]
        rfl
      · by_cases own : ∃ line ∈ Text.lines text, Golang.Requires line p.name
        · obtain ⟨line, there, requires⟩ := own
          exact .inl (.golang kind reads there requires)
        · have others : ∀ line ∈ Text.lines text, ¬ Golang.Requires line p.name :=
            fun line there requires => own ⟨line, there, requires⟩
          rcases Golang.requires_or_misread entry with requires | ⟨count, rest, more, odd, begins, words⟩
          · exact absurd requires (others line there)
          · exact .inr (.golang kind reads others there odd begins words)

end verify

/-- An install of a package of no version in particular that ends well has read the package's record last.
The record shows the package itself, unless it misleads: for a gem, when files are listed whose names go on
behind the gem's name and a hyphen, but with a digit in none of them; for a module, when no line of `go.mod`
requires it, but one begins with `require` more often than once or without a blank behind it, or with another
of the words that `go.mod` has a meaning for, and the module is called by that word. The others have no record
that misleads. -/
theorem unpinned_install_is_read_back {b : Backend} (unpinned : p.version = latest)
    (chosen : Backend.ofMethod (.package p) dir = .ok b)
    (made : Logged log t ((b.install (.package p)).run.run o) (.ok (), o') t') :
    ∃ ran h, log = ran ++ [readingBack dir p h] ∧ (Shows dir p h ↔ ¬ Misleads dir p h) ∧
      (p.ecosystem ∈ [.npm, .cargo, .pypi] → Shows dir p h) := by
  have newest : p.isLatest = true := by simp [Package.isLatest, unpinned]
  have assemble : ∀ {first rest : List Occasion}, (∃ h, rest = [readingBack dir p h] ∧
        (Shows dir p h ∨ Misleads dir p h) ∧ (p.ecosystem ∈ [.npm, .cargo, .pypi] → Shows dir p h)) →
      ∃ ran h, first ++ rest = ran ++ [readingBack dir p h] ∧ (Shows dir p h ↔ ¬ Misleads dir p h) ∧
        (p.ecosystem ∈ [.npm, .cargo, .pypi] → Shows dir p h) := by
    rintro first rest ⟨h, rfl, either, own⟩
    refine ⟨first, h, rfl, ⟨fun shows misleads => misleads.not_shows shows, fun fair => ?_⟩, own⟩
    exact either.resolve_right fair
  obtain ⟨e, kind⟩ : ∃ e, p.ecosystem = e := ⟨_, rfl⟩
  cases e <;> simp only [Backend.ofMethod, kind] at chosen <;> cases chosen
  case npm =>
    obtain ⟨ran, rest, _, _, _, rfl, _, verified⟩ := Installing.logged_bind_ok (logged_packageOf made)
    obtain ⟨h, single, shows⟩ := shows_npm newest kind verified
    exact assemble ⟨h, single, .inl shows, fun _ => shows⟩
  case cargo =>
    obtain ⟨ran, rest, _, _, _, rfl, _, verified⟩ := Installing.logged_bind_ok (logged_packageOf made)
    obtain ⟨h, single, shows⟩ := shows_cargo newest kind verified
    exact assemble ⟨h, single, .inl shows, fun _ => shows⟩
  case pypi =>
    obtain ⟨wrote, rest, _, _, _, rfl, _, onward⟩ := Installing.logged_bind_ok (logged_packageOf made)
    obtain ⟨ran, rest', _, _, _, rfl, _, verified⟩ := Installing.logged_bind_ok onward
    obtain ⟨h, single, shows⟩ := shows_pypi newest kind verified
    rw [← List.append_assoc]
    exact assemble ⟨h, single, .inl shows, fun _ => shows⟩
  case gem =>
    obtain ⟨chose, rest, _, _, _, rfl, _, onward⟩ := Installing.logged_bind_ok (logged_packageOf made)
    obtain ⟨ran, rest', _, _, _, rfl, _, verified⟩ := Installing.logged_bind_ok onward
    obtain ⟨h, single, either⟩ := shows_or_misleads_gem newest kind verified
    rw [← List.append_assoc]
    exact assemble ⟨h, single, either, by simp [kind]⟩
  case golang =>
    obtain ⟨got, rest, _, _, _, rfl, _, onward⟩ := Installing.logged_bind_ok (logged_packageOf made)
    obtain ⟨ran, rest', _, _, _, rfl, _, verified⟩ := Installing.logged_bind_ok onward
    obtain ⟨h, single, either⟩ := shows_or_misleads_golang newest kind verified
    rw [← List.append_assoc]
    exact assemble ⟨h, single, either, by simp [kind]⟩

/-! A gem `g` of which nothing is there, but a gem `g-x`. -/
namespace Misled
open Linked Files

def gem : Package := { Linked.gem with id := "pkg:gem/g", version := latest }

def files : Files := rooted [] [] [("n", .dir [("bin", .dir []),
  ("specifications", .dir [("g-x-1.gemspec", .file [] false)])])]

/-- A machine where the manager of gems ends well and does nothing. -/
def machine : Host := { Linked.host files with programs := fun _ _ => ⟨[], .exit 0⟩ }

def installing : Command :=
  (Command.ofArgs "gem" ["install", "--no-document", "--install-dir", "/n", "--bindir", "/n/bin", "g"]).addEnv
    "GEM_HOME" "/n"

theorem execute_installing : (machine.execute installing .reported).1 = ⟨[], .ok ()⟩ ∧
    (machine.execute installing .reported).2.files = files := by
  have started := invocation_gem [("n", .dir [("bin", .dir []),
    ("specifications", .dir [("g-x-1.gemspec", .file [] false)])])] (c := installing) (by decide) rfl
    (programFile_name _ (by decide))
  have calm : ¬ (machine.isCancelled = true ∧ RunMode.reported ≠ .steady) := nofun
  unfold Host.execute
  rw [if_neg calm, show machine.invocation installing = _ from started]
  constructor <;> rfl

theorem list_specifications : machine.answer (.list ⟨"/n/specifications"⟩) =
    (.ok ["g-x-1.gemspec"], { machine with operations := 1 }) := by
  have parts : Path.components ⟨"/n/specifications"⟩ = [.root, .name "n", .name "specifications"] := by cbv
  have listed : files.list ⟨"/n/specifications"⟩ = .ok ["g-x-1.gemspec"] := by
    rw [Files.list, Files.find, locate_eq (by decide), parts]
    cbv
  have place : machine.absolute ⟨"/n/specifications"⟩ = ⟨"/n/specifications"⟩ := by
    rw [absolute_of_ne (by decide), Path.join_absolute (by decide)]
  change machine.look (fun t => t.list (machine.absolute ⟨"/n/specifications"⟩)) = _
  rw [place]
  change (files.list ⟨"/n/specifications"⟩, _) = _
  rw [listed]
  rfl

/-- The calls of the install, in order. -/
def moments : List Occasion :=
  [⟨machine, .run installing .reported⟩, ⟨machine, .list ⟨"/n/specifications"⟩⟩]

theorem logged_moments (o : Operation) :
    Logged moments files (((Gem.backend ⟨"/n"⟩).install (.package gem)).run.run o) (.ok (), o) files := by
  have ran : machine.answer (.run installing .reported) =
      (⟨[], .ok ()⟩, (machine.execute installing .reported).2) :=
    Prod.ext execute_installing.1 rfl
  refine .call rfl ?_
  rw [ran]
  refine .call execute_installing.2.symm ?_
  rw [list_specifications]
  exact .done

theorem place_specifications : (⟨"/n"⟩ : Path) / "specifications" = ⟨"/n/specifications"⟩ := by decide

theorem readingBack_gem (h : Host) : readingBack ⟨"/n"⟩ gem h = ⟨h, .list ⟨"/n/specifications"⟩⟩ := by
  rw [← place_specifications]
  rfl

/-- What is read back last is read on that machine. -/
theorem eq_machine {ran : List Occasion} {h : Host} (same : moments = ran ++ [readingBack ⟨"/n"⟩ gem h]) :
    h = machine := by
  have last := congrArg List.getLast? same
  rw [List.getLast?_append, readingBack_gem] at last
  cases last
  rfl

/-- The gem `g-x` is of no version of `g`. -/
theorem not_shows : ¬ Shows ⟨"/n"⟩ gem machine := by
  intro shows
  cases shows with
  | gem kind listed there first digit =>
      rw [place_specifications, list_specifications] at listed
      obtain rfl := Except.ok.inj listed
      obtain rfl := Gem.specification_inj ((List.mem_singleton.mp there).trans
        (show "g-x-1.gemspec" = Gem.specification "g" "x-1" from rfl))
      obtain rfl : 'x' = _ := Option.some.inj first
      exact absurd digit (by decide)
  | npm kind | cargo kind | pypi kind | golang kind => cases kind

end Misled

/-- Another gem is taken for the gem that has been asked for. -/
theorem other_gem_is_taken_for_the_gem : ∃ o', Logged Misled.moments Misled.files
    (((Gem.backend ⟨"/n"⟩).install (.package Misled.gem)).run.run (.start "g")) (.ok (), o') Misled.files ∧
    ∃ ran h, Misled.moments = ran ++ [readingBack ⟨"/n"⟩ Misled.gem h] ∧ Misleads ⟨"/n"⟩ Misled.gem h := by
  obtain ⟨ran, h, same, read, -⟩ := unpinned_install_is_read_back rfl rfl (Misled.logged_moments (.start "g"))
  obtain rfl := Misled.eq_machine same
  by_contra fair
  exact Misled.not_shows (read.mpr fun misleads => fair ⟨_, Misled.logged_moments _, ran, _, same, misleads⟩)

end Install

end LanguageHost
