import Mathlib
import LanguageHost.Proofs.Install.ReadBack
import LanguageHost.Proofs.Package.Grammar
import LanguageHost.Proofs.Program.Log
import LanguageHost.Proofs.Text.Utf8

/-! Packages that come from a repository and name no version. What stands for the latest version is no
reference there. The builds from source and the crates leave it out, and so get what the repository has by
default; the packages of npm and those of Python ask the repository for it. -/
namespace LanguageHost

/-- The references that options give. The values of other options are none. -/
def optionRefs : List String → List String
  | flag :: value :: rest =>
    if flag ∈ ["--tag", "--rev", "--branch", "--detach"] then value :: optionRefs rest
    else if flag ∈ ["--root", "--git", "--depth", "--features"] then optionRefs rest
    else optionRefs (value :: rest)
  | _ => []

/-- The command asks a repository for a reference, by an option or at the end of its URL. -/
def Command.Names (url ref : String) (c : Command) : Prop :=
  (c.program = "npm" ∧ "git+" ++ url ++ "#" ++ ref ∈ c.args) ∨ ref ∈ optionRefs c.args

/-- The text of a requirement that asks a repository for a reference. -/
def pinnedRequirement (name url ref : String) : String := name ++ " @ git+" ++ url ++ "@" ++ ref ++ "\n"

/-- The call asks a repository for a reference. -/
def Call.Names (url ref : String) : Call β → Prop
  | .run c _ => c.Names url ref
  | .writeFile _ content => ∃ name, content = Utf8.ofString (pinnedRequirement name url ref)
  | _ => False

namespace Install
open Program (Logged)
open Installing (Only)

/-- The calls that ask a repository for no such reference. -/
def Spares (url ref : String) : Call.Kind := fun _ c => ¬ c.Names url ref

section spares
variable {url ref : String}

theorem plain_spares {β : Type} (c : Call β) (plain : c.IsPlain) : Spares url ref β c := by
  cases c <;> first | exact id | exact plain.elim

/-- A command of another tool than npm, without a reference among its options. -/
theorem spares_run {c : Command} {mode : RunMode} (other : c.program ≠ "npm")
    (bare : ref ∉ optionRefs c.args) : Spares url ref _ (.run c mode) := by
  rintro (⟨npm, -⟩ | listed)
  · exact other npm
  · exact bare listed

/-- A command of any tool that always has the same arguments. -/
theorem spares_fixed {program : String} {cwd : Option Path} {env : Table String} {mode : RunMode}
    {args : List String} (fixed : ∀ arg ∈ args, arg.toList.head? ≠ some 'g') (bare : optionRefs args = []) :
    Spares url ref _ (.run ⟨program, args, cwd, env⟩ mode) := by
  rintro (⟨-, listed⟩ | listed)
  · apply fixed _ listed
    simp [String.toList_append]
  · change ref ∈ optionRefs args at listed
    rw [bare] at listed
    cases listed

theorem spares_writeText {file : Path} {text : String} (plain : '@' ∉ text.toList) :
    Spares url ref _ (Program.writeText file text) := by
  rintro ⟨name, same⟩
  have texts := congrArg Utf8.decode same
  rw [Utf8.ofString, Utf8.ofString, Utf8.decode_encode, Utf8.decode_encode] at texts
  apply plain
  rw [Option.some.inj texts]
  simp [pinnedRequirement, String.toList_append]

theorem only_requireTool {tool found : String} {args : List String}
    (fixed : ∀ arg ∈ args, arg.toList.head? ≠ some 'g') (bare : optionRefs args = [])
    (version : List VersionPart) :
    Only (Spares url ref) (Backend.requireTool tool (Backend.detect found args version)) := by
  refine .bind (.lift (.bind (.ask id) fun file => ?_)) fun there => ?_
  · cases file with
    | none => exact .pure _
    | some file =>
        refine .bind (.capture (spares_fixed fixed bare)) fun output => ?_
        cases output <;> exact .pure _
  · cases there with
    | false => exact .fail _
    | true => exact .pure _

theorem only_npm (dir : Path) : Only (Spares url ref) (Npm.backend dir).prepare ∧
    Only (Spares url ref) (Npm.backend dir).cleanup := by
  constructor
  · refine .bind (only_requireTool (by decide) (by decide) _) fun _ => ?_
    refine .bind (.io id) fun _ => .bind (.exists? plain_spares _) fun there => ?_
    have marks : Only (Spares url ref)
        (Installing.io (Program.writeText (dir / ".npmrc") "install-strategy=shallow\n")) :=
      .io (spares_writeText (by decide))
    cases there with
    | false => exact .bind (.command (spares_fixed (by decide) (by decide))) fun _ => marks
    | true => exact marks
  · exact .bind (.remove plain_spares _) fun _ => .remove plain_spares _

theorem only_pip (dir : Path) : Only (Spares url ref) (Pip.backend dir).prepare ∧
    Only (Spares url ref) (Pip.backend dir).cleanup := by
  have empties : Only (Spares url ref) (Installing.io (Program.writeText (dir / Pip.requirementsFile) "")) :=
    .io (spares_writeText nofun)
  constructor
  · refine .bind (only_requireTool (by decide) (by decide) _) fun _ => ?_
    refine .bind (.io id) fun _ => .bind (.exists? plain_spares _) fun there => ?_
    cases there with
    | false => exact .bind (.command (spares_fixed (by decide) (by decide))) fun _ => empties
    | true => exact empties
  · refine .bind (.exists? plain_spares _) fun there => ?_
    cases there with
    | false => exact .pure _
    | true => exact empties

theorem only_cargo (dir : Path) : Only (Spares url ref) (Cargo.backend dir).prepare ∧
    Only (Spares url ref) (Cargo.backend dir).cleanup :=
  ⟨.bind (only_requireTool (by decide) (by decide) _) fun _ => .io id, .pure _⟩

theorem only_checkout (dir : Path) : Only (Spares url ref) (Checkout.backend dir).prepare ∧
    Only (Spares url ref) (Checkout.backend dir).cleanup := by
  constructor
  · refine .bind (only_requireTool (by decide) (by decide) _) fun _ => ?_
    exact .bind (.io id) fun _ => .remove plain_spares _
  · exact .remove plain_spares _

end spares

/-! What is asked for where the tag is the one that stands for the latest version. -/

section latest
variable {dir : Path} {p : Package} {url : String} (from_git : p.repository = some url)
  (unpinned : p.pin = some (.tag latest))
include from_git unpinned

/-- What cargo is told behind the URL. -/
theorem arguments_of_latest (dir : Path) : ∃ options, optionRefs options = [] ∧
    Cargo.arguments dir p = "install" :: "--root" :: dir.text :: "--git" :: url :: options := by
  have arguments : Cargo.arguments dir p = "install" :: "--root" :: dir.text :: "--git" :: url ::
      ((if (p.optionList "features").isEmpty then []
          else ["--features", String.intercalate "," (p.optionList "features")]) ++
        (if p.option? "locked" = some "true" then ["--locked"] else []) ++ [p.name]) := by
    rw [Cargo.arguments, from_git, unpinned]
    rfl
  refine ⟨_, ?_, arguments⟩
  split <;> split <;> simp [optionRefs]

theorem only_cargo_install : Only (Spares url latest) ((Cargo.backend dir).install (.package p)) := by
  obtain ⟨options, bare, arguments⟩ := arguments_of_latest from_git unpinned dir
  have asks : Spares url latest _ (.run (.ofArgs "cargo" (Cargo.arguments dir p)) .reported) := by
    refine spares_run (show "cargo" ≠ "npm" by decide) ?_
    change latest ∉ optionRefs (Cargo.arguments dir p)
    rw [arguments]
    simp [optionRefs, bare]
  have whole : Only (Spares url latest) (do
      Installing.command (.ofArgs "cargo" (Cargo.arguments dir p))
      Cargo.verify dir p) := by
    refine .bind (.command asks) fun _ => .bind ?_ fun text => ?_
    · refine .bind (.lift (.readText plain_spares _)) fun r => ?_
      cases r with
      | ok text => exact .pure _
      | error e => exact .fail _
    · split
      · exact .fail _
      · split
        · exact .fail _
        · split
          · exact .pure _
          · exact .fail _
  exact whole

/-- The command that fetches what a repository has by default. -/
def clone (dir : Path) (url : String) : Command :=
  (Command.ofArgs "git" ["clone", "--depth", "1", url, "src"]).within dir

omit from_git in
theorem cloneCommands_of_latest : Checkout.cloneCommands dir url p.pin = [clone dir url] := by
  rw [unpinned]
  rfl

theorem only_checkout_install (build : String) :
    Only (Spares url latest) ((Checkout.backend dir).install (.sourceBuild p build)) := by
  have clones : Spares url latest _ (.run (clone dir url) .reported) := by
    refine spares_run (show "git" ≠ "npm" by decide) ?_
    change latest ∉ optionRefs [url, "src"]
    simp only [optionRefs]
    split_ifs <;> simp [latest]
  have builds : Spares url latest _
      (.run ((Command.shell build).within (Checkout.source dir)) .reported) := by
    refine spares_run (show "sh" ≠ "npm" by decide) ?_
    change latest ∉ optionRefs ["-c", build]
    simp [optionRefs]
  have fetches : Only (Spares url latest) (Checkout.fetch dir p) := by
    unfold Checkout.fetch
    rw [from_git]
    dsimp only
    rw [cloneCommands_of_latest unpinned]
    refine .bind (.forEach fun c there => ?_) fun _ => .pure _
    obtain rfl := List.mem_singleton.mp there
    exact .bind (.command clones) fun _ => .pure _
  refine .bind fetches fun _ => .bind ?_ fun _ => .command builds
  rw [Checkout.verify, unpinned]
  exact .pure _

end latest

/-! The first call of an install, which tells what is asked for. -/

section first
variable {log : List Occasion} {t t' : Files} {o : Operation} {r : Except Error α × Operation}

theorem logged_command_first {c : Command} {f : Unit → Installing α}
    (made : Logged log t ((Installing.command c >>= f).run.run o) r t') :
    ∃ h rest, log = ⟨h, .run c .reported⟩ :: rest := by
  cases made with
  | call => exact ⟨_, _, rfl⟩

theorem logged_io_first {c : Call (Except IoError β)} {f : β → Installing α}
    (made : Logged log t ((Installing.io c >>= f).run.run o) r t') : ∃ h rest, log = ⟨h, c⟩ :: rest := by
  cases made with
  | call => exact ⟨_, _, rfl⟩

end first

section asks
variable {dir : Path} {p : Package} {url : String} {log : List Occasion} {t t' : Files} {o : Operation}
  {r : Except Error Unit × Operation}

theorem npm_names (from_git : p.repository = some url) (unpinned : p.pin = some (.tag latest))
    (made : Logged log t (((Npm.backend dir).install (.package p)).run.run o) r t') :
    ∃ m ∈ log, m.call.Names url latest := by
  obtain ⟨h, rest, rfl⟩ := logged_command_first (logged_packageOf made)
  have spec : Npm.spec p = "git+" ++ url ++ "#" ++ latest := by
    rw [Npm.spec, from_git, unpinned]
    rfl
  refine ⟨_, List.mem_cons_self, .inl ⟨rfl, ?_⟩⟩
  rw [← spec]
  exact List.mem_cons_of_mem _ List.mem_cons_self

theorem pip_names (from_git : p.repository = some url) (unpinned : p.pin = some (.tag latest))
    (made : Logged log t (((Pip.backend dir).install (.package p)).run.run o) r t') :
    ∃ m ∈ log, m.call.Names url latest := by
  obtain ⟨h, rest, rfl⟩ := logged_io_first (logged_packageOf made)
  have requirement : ∃ name, Pip.requirement p ++ "\n" = pinnedRequirement name url latest := by
    rw [Pip.requirement, from_git, unpinned]
    exact ⟨_, rfl⟩
  obtain ⟨name, text⟩ := requirement
  exact ⟨_, List.mem_cons_self, name, congrArg Utf8.ofString text⟩

theorem cargo_first (from_git : p.repository = some url) (unpinned : p.pin = some (.tag latest))
    (made : Logged log t (((Cargo.backend dir).install (.package p)).run.run o) r t') :
    ∃ h options rest, optionRefs options = [] ∧ log = ⟨h, .run (.ofArgs "cargo"
      ("install" :: "--root" :: dir.text :: "--git" :: url :: options)) .reported⟩ :: rest := by
  obtain ⟨options, bare, arguments⟩ := arguments_of_latest from_git unpinned dir
  obtain ⟨h, rest, rfl⟩ := logged_command_first (logged_packageOf made)
  refine ⟨h, options, rest, bare, ?_⟩
  rw [arguments]

theorem checkout_first {build : String} (from_git : p.repository = some url)
    (unpinned : p.pin = some (.tag latest))
    (made : Logged log t (((Checkout.backend dir).install (.sourceBuild p build)).run.run o) r t') :
    ∃ h rest, log = ⟨h, .run (clone dir url) .reported⟩ :: rest := by
  have fetched : ∃ first rest x t₁, log = first ++ rest ∧
      Logged first t ((Checkout.fetch dir p).run.run o) x t₁ := by
    have made' : Logged log t ((Checkout.fetch dir p >>= fun _ => do
        Checkout.verify dir p
        Installing.command ((Command.shell build).within (Checkout.source dir))).run.run o) r t' := made
    rw [Installing.run_bind] at made'
    obtain ⟨first, rest, x, t₁, whole, before, -⟩ := Program.logged_bind made'
    exact ⟨first, rest, x, t₁, whole, before⟩
  obtain ⟨first, rest, x, t₁, rfl, before⟩ := fetched
  unfold Checkout.fetch at before
  rw [from_git] at before
  dsimp only at before
  rw [cloneCommands_of_latest unpinned] at before
  cases before with
  | call => exact ⟨_, _, rfl⟩

end asks

end Install

namespace Package

/-- A package that is read tells of the identifier. -/
theorem tells_of_ofId? {id : String} {p : Package} {s : Spelling} (read : ofId? id = some p)
    (proper : s.Proper) (written : Text.trimmed id.toList = s.text) : p.Tells s := by
  have made := read
  rw [proper.ofId?_eq written] at made
  obtain ⟨name, version, q, options, reads⟩ := Parts.read?_eq_some_iff.mp made
  exact Spelling.tells_of_reads proper reads (wellFormed_of_ofId? read)

/-- Where a repository is known and neither a version nor a pin is given, the tag that stands for the latest
version is taken for the pin. -/
theorem Tells.pin_of_latest {p : Package} {s : Spelling} {url : String} (tells : p.Tells s)
    (unpinned : ∀ f ∈ s.fields, ¬ f.IsPin) (unversioned : p.version = latest)
    (from_git : p.repository = some url) : p.pin = some (.tag latest) := by
  have pinned : p.pin.isSome := tells.pinned.mpr (.inr (by rw [from_git]; rfl))
  obtain ⟨pin, there⟩ := Option.isSome_iff_exists.mp pinned
  have uncommitted : ¬ Pin.IsCommit p.version := by
    rw [unversioned]
    exact fun commit => absurd commit.1 (by decide)
  rw [there, (tells.inferred unpinned pin there).2 uncommitted, unversioned]

end Package

namespace Install
open Program (Logged)
open Installing (Only)

/-- What comes from a repository and has neither a version nor a pin is fetched by cargo and by a build from
source as the repository has it by default. The backends of npm and of Python ask for `latest`, which is
there only if the repository happens to have a branch or a tag of that name. No other call that these four
backends can make asks for it. -/
theorem latest_is_asked_for_by_npm_and_pip {id : String} {p : Package} {s : Package.Spelling} {url : String}
    {m : InstallMethod} {dir : Path} {b : Backend} (read : Package.ofId? id = some p) (proper : s.Proper)
    (written : Text.trimmed id.toList = s.text) (unpinned : ∀ f ∈ s.fields, ¬ f.IsPin)
    (unversioned : p.version = latest) (from_git : p.repository = some url)
    (method : (m = .package p ∧ p.ecosystem ∈ [.npm, .cargo, .pypi]) ∨ ∃ build, m = .sourceBuild p build)
    (chosen : Backend.ofMethod m dir = .ok b) :
    (∀ log t o r t', Logged log t ((b.install m).run.run o) r t' →
      ((∃ c ∈ log, c.call.Names url latest) ↔ m = .package p ∧ p.ecosystem ∈ [.npm, .pypi]) ∧
      (m = .package p → p.ecosystem = .cargo → ∃ h options rest, optionRefs options = [] ∧
        log = ⟨h, .run (.ofArgs "cargo"
          ("install" :: "--root" :: dir.text :: "--git" :: url :: options)) .reported⟩ :: rest) ∧
      (m ≠ .package p → ∃ h rest, log = ⟨h, .run (clone dir url) .reported⟩ :: rest)) ∧
    ∀ log t o r t', Logged log t (b.prepare.run.run o) r t' ∨ Logged log t (b.cleanup.run.run o) r t' →
      ∀ c ∈ log, ¬ c.call.Names url latest := by
  have pin := (Package.tells_of_ofId? read proper written).pin_of_latest unpinned unversioned from_git
  have spared : ∀ {b : Backend},
      Only (Spares url latest) b.prepare ∧ Only (Spares url latest) b.cleanup →
      ∀ log t o r t', Logged log t (b.prepare.run.run o) r t' ∨ Logged log t (b.cleanup.run.run o) r t' →
        ∀ c ∈ log, ¬ c.call.Names url latest := by
    rintro b ⟨prepare, cleanup⟩ log t o r t' (made | made)
    · exact made.only (prepare o)
    · exact made.only (cleanup o)
  rcases method with ⟨rfl, listed⟩ | ⟨build, rfl⟩
  · simp only [List.mem_cons, List.not_mem_nil, or_false] at listed
    rcases listed with kind | kind | kind
    all_goals
      simp only [Backend.ofMethod, kind] at chosen
      cases chosen
    · refine ⟨fun log t o r t' made => ⟨?_, fun _ other => ?_, fun ne => absurd rfl ne⟩, spared (only_npm dir)⟩
      · exact iff_of_true (npm_names from_git pin made) (by simp [kind])
      · exact absurd (kind.symm.trans other) (by decide)
    · refine ⟨fun log t o r t' made => ⟨?_, fun _ _ => ?_, fun ne => absurd rfl ne⟩, spared (only_cargo dir)⟩
      · refine iff_of_false ?_ (by simp [kind])
        rintro ⟨c, there, names⟩
        exact made.only (only_cargo_install from_git pin o) c there names
      · exact cargo_first from_git pin made
    · refine ⟨fun log t o r t' made => ⟨?_, fun _ other => ?_, fun ne => absurd rfl ne⟩, spared (only_pip dir)⟩
      · exact iff_of_true (pip_names from_git pin made) (by simp [kind])
      · exact absurd (kind.symm.trans other) (by decide)
  · cases chosen
    refine ⟨fun log t o r t' made => ⟨iff_of_false ?_ ?_, ?_, fun _ => ?_⟩, spared (only_checkout dir)⟩
    · rintro ⟨c, there, names⟩
      exact made.only (only_checkout_install from_git pin build o) c there names
    · rintro ⟨⟨⟩, -⟩
    · rintro ⟨⟩
    · exact checkout_first from_git pin made

namespace Unversioned

def url : String := "https://github.com/o/r"

/-- A server in a repository, of some ecosystem. -/
def server (e : Ecosystem) : Package.Spelling :=
  ⟨e, "s".toList, none, some [⟨"repository_url".toList, some url.toList⟩], none, none⟩

def identifier (e : Ecosystem) : String := String.ofList (server e).text

def package (e : Ecosystem) : Package := ⟨identifier e, e, "s", latest, some url, some (.tag latest), []⟩

theorem read : Package.ofId? (identifier .npm) = some (package .npm) ∧
    Package.ofId? (identifier .cargo) = some (package .cargo) := by
  constructor <;> cbv

/-- A machine without files and programs. -/
def machine : Host :=
  ⟨.dir [], ⟨"/"⟩, [], none, fun _ _ => ⟨[], .exit 0⟩, fun _ _ => none, "", .never, false, fun _ => none, 0,
    [], []⟩

theorem proper (e : Ecosystem) : (server e).Proper := by
  refine ⟨by cases e <;> decide, by cases e <;> decide, ?_, nofun, nofun, fun _ => by cases e <;> decide⟩
  rintro f (_ | ⟨_, ⟨⟩⟩)
  exact ⟨by decide, by decide⟩

end Unversioned

open Unversioned in
theorem unversioned_npm_server_asks_for_latest :
    (∃ log r t', Logged log machine.files
      (((Npm.backend ⟨"/n"⟩).install (.package (package .npm))).run.run (.start "s")) r t' ∧
      ∃ c ∈ log, c.call.Names url latest) ∧
    ∃ log r t', Logged log machine.files
      (((Cargo.backend ⟨"/n"⟩).install (.package (package .cargo))).run.run (.start "s")) r t' ∧
      ¬ ∃ c ∈ log, c.call.Names url latest := by
  have unpinned : ∀ e, ∀ f ∈ (server e).fields, ¬ f.IsPin := by
    rintro e f (_ | ⟨_, ⟨⟩⟩)
    decide +kernel
  have written : ∀ e, Text.trimmed (identifier e).toList = (server e).text := by
    intro e
    cases e <;> decide +kernel
  constructor
  · obtain ⟨installs, -⟩ := latest_is_asked_for_by_npm_and_pip read.1 (proper .npm) (written .npm)
      (unpinned .npm) rfl rfl (.inl ⟨rfl, by decide⟩)
      (show Backend.ofMethod (.package (package .npm)) ⟨"/n"⟩ = .ok _ from rfl)
    have made := Program.logged_log
      (((Npm.backend ⟨"/n"⟩).install (.package (package .npm))).run.run (.start "s")) machine
    exact ⟨_, _, _, made, (installs _ _ _ _ _ made).1.mpr ⟨rfl, by decide⟩⟩
  · obtain ⟨installs, -⟩ := latest_is_asked_for_by_npm_and_pip read.2 (proper .cargo) (written .cargo)
      (unpinned .cargo) rfl rfl (.inl ⟨rfl, by decide⟩)
      (show Backend.ofMethod (.package (package .cargo)) ⟨"/n"⟩ = .ok _ from rfl)
    have made := Program.logged_log
      (((Cargo.backend ⟨"/n"⟩).install (.package (package .cargo))).run.run (.start "s")) machine
    refine ⟨_, _, _, made, fun named => ?_⟩
    exact absurd ((installs _ _ _ _ _ made).1.mp named).2 (by decide)

end Install

end LanguageHost
