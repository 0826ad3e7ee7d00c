import LanguageHost.Install.Installer
import LanguageHost.Proofs.Program.Log

/-! What the calls of an install tell of its end: it ends as cancelled just if one of them has told of a
cancellation, and well only if all its commands have gone well. The query of a Python package alone keeps
a cancellation for itself. -/
namespace LanguageHost.Install
open Program (Logged)

/-- The package is one of Python's. -/
def IsPython : InstallMethod → Prop
  | .package p => p.ecosystem = .pypi
  | _ => False

section backends
variable {muffled : Prop}
open Installing (Tells Deaf)

theorem tells_packageOf (m : InstallMethod) : Tells muffled (Backend.packageOf m) := by
  cases m with
  | package source => exact .pure _
  | _ => exact .fail nofun

theorem tells_failed (p : Package) (reason : String) :
    Tells muffled (Backend.failed p reason : Installing α) := .fail nofun

theorem tells_unsupported (reason : String) :
    Tells muffled (Installing.fail (.unsupportedSource reason) : Installing α) := .fail nofun

theorem deaf_detect (tool : String) (args : List String) (version : List VersionPart) :
    (Backend.detect tool args version).Deaf := by
  refine .bind (.ask trivial) fun file => ?_
  cases file with
  | none => exact .pure _
  | some file =>
      refine .bind (.capture _) fun r => ?_
      cases r <;> exact .pure _

theorem tells_requireTool (tool : String) (args : List String) (version : List VersionPart) :
    Tells muffled (Backend.requireTool tool (Backend.detect tool args version)) := by
  refine .bind (.lift (deaf_detect tool args version)) fun there => ?_
  cases there with
  | true => exact .pure _
  | false => exact .fail nofun

theorem tells_readOrFail (p : Package) (file : Path) (reason : String) :
    Tells muffled (Backend.readOrFail p file reason) := by
  refine .bind (.lift (.readText file)) fun r => ?_
  cases r with
  | ok text => exact .pure _
  | error e => exact tells_failed p reason

theorem tells_readJson (file : Path) : Tells muffled (Npm.readJson file) := by
  refine .bind (.lift (.readText file)) fun r => ?_
  cases r with
  | error e => exact .fail (e := .io e) nofun
  | ok text =>
      dsimp only
      split
      · exact .pure _
      · exact .fail nofun

theorem deaf_readJson (file : Path) : Deaf (Npm.readJson file) := by
  refine .bind (.lift (.readText file)) fun r => ?_
  cases r with
  | error e => exact .fail _
  | ok text =>
      dsimp only
      split
      · exact .pure _
      · exact .fail _

theorem tells_npm_verify (dir : Path) (p : Package) : Tells muffled (Npm.verify dir p) := by
  refine .bind (tells_readJson _) fun manifest => ?_
  dsimp only
  split
  · exact tells_failed _ _
  · split
    · exact .pure _
    · refine .bind (.tryCatch (tells_readJson _) (deaf_readJson _) fun _ => tells_failed _ _)
        fun installed => ?_
      split
      · exact .pure _
      · exact tells_failed _ _

theorem tells_cargo_verify (dir : Path) (p : Package) : Tells muffled (Cargo.verify dir p) := by
  refine .bind (tells_readOrFail _ _ _) fun text => ?_
  split
  · exact .fail nofun
  · split
    · exact tells_failed _ _
    · split
      · exact .pure _
      · exact tells_failed _ _

theorem tells_gem_verify (dir : Path) (p : Package) : Tells muffled (Gem.verify dir p) := by
  unfold Gem.verify
  split
  · refine .bind (.ask trivial) fun r => ?_
    cases r with
    | error e => exact tells_failed _ _
    | ok names =>
        dsimp only
        split
        · exact .pure _
        · exact tells_failed _ _
  · refine .bind (.exists? _) fun there => ?_
    split
    · exact .pure _
    · exact tells_failed _ _

theorem tells_golang_verify (dir : Path) (p : Package) : Tells muffled (Golang.verify dir p) := by
  refine .bind (tells_readOrFail _ _ _) fun text => ?_
  split
  · exact tells_failed _ _
  · split
    · exact .pure _
    · exact tells_failed _ _

/-- The query of a Python package: that it was cancelled is not told apart from its other failures. -/
theorem tells_pip_verify (silent : muffled) (dir : Path) (p : Package) :
    Tells muffled (Pip.verify dir p) := by
  refine ⟨fun {log t t' o o' r} run => ?_⟩
  unfold Pip.verify at run
  rw [Installing.run_bind] at run
  obtain ⟨before, after, ⟨a, o₁⟩, t₁, rfl, asked, run⟩ := Program.logged_bind run
  obtain ⟨shown, rfl, lifted⟩ := Tells.logged_lift asked
  obtain ⟨h, -, rfl, -, rfl⟩ := logged_capture lifted
  cases outcome : (h.execute (Command.ofArgs (Pip.python dir).text ["-m", "pip", "show", p.name])
      .quiet).1.outcome with
  | ok u =>
      rw [outcome] at run
      refine Told.append (a := ()) ⟨⟨(by simp), ?_⟩, fun _ m there => ?_⟩ (Tells.told ?_ run)
      · rintro ⟨m, there, noticed, -⟩
        cases List.mem_singleton.mp there
        cases outcome.symm.trans noticed.2
      · cases List.mem_singleton.mp there
        exact fun _ => outcome
      · dsimp only [Except.map]
        split
        · exact tells_failed _ _
        · split
          · exact .pure _
          · exact tells_failed _ _
  | error e =>
      rw [outcome] at run
      cases run
      refine .of_failure (by simp) ?_
      rintro ⟨m, there, -, heard⟩
      cases List.mem_singleton.mp there
      exact absurd ⟨silent, trivial⟩ heard

/-! Whole backends. -/

/-- What the backend prepares and installs tells of its end, and no cancellation reaches its cleanup. -/
structure Heard (muffled : Prop) (m : InstallMethod) (b : Backend) : Prop where
  prepare : Tells muffled b.prepare
  install : Tells muffled (b.install m)
  cleanup : Deaf b.cleanup

theorem heard_npm (dir : Path) (m : InstallMethod) : Heard muffled m (Npm.backend dir) where
  prepare := by
    refine .bind (tells_requireTool _ _ _) fun _ => .bind (.io trivial) fun _ => ?_
    refine .bind (.exists? _) fun there => ?_
    dsimp only
    split
    · exact .bind .command fun _ => .io trivial
    · exact .io trivial
  install := .bind (tells_packageOf m) fun _ => .bind .command fun _ => tells_npm_verify _ _
  cleanup := .bind (.remove _) fun _ => .remove _

theorem heard_cargo (dir : Path) (m : InstallMethod) : Heard muffled m (Cargo.backend dir) where
  prepare := .bind (tells_requireTool _ _ _) fun _ => .io trivial
  install := .bind (tells_packageOf m) fun _ => .bind .command fun _ => tells_cargo_verify _ _
  cleanup := .pure _

theorem heard_pip (silent : muffled) (dir : Path) (m : InstallMethod) :
    Heard muffled m (Pip.backend dir) where
  prepare := by
    refine .bind (tells_requireTool _ _ _) fun _ => .bind (.io trivial) fun _ => ?_
    refine .bind (.exists? _) fun there => ?_
    dsimp only
    split
    · exact .bind .command fun _ => .io trivial
    · exact .io trivial
  install := .bind (tells_packageOf m) fun _ => .bind (.io trivial) fun _ =>
    .bind .command fun _ => tells_pip_verify silent _ _
  cleanup := by
    refine .bind (.exists? _) fun there => ?_
    split
    · exact .io trivial
    · exact .pure _

theorem gem_command_ne (dir : Path) (p : Package) : Gem.command dir p ≠ .error .cancelled := by
  unfold Gem.command
  split <;> exact nofun

theorem heard_gem (dir : Path) (m : InstallMethod) : Heard muffled m (Gem.backend dir) where
  prepare := .bind (tells_requireTool _ _ _) fun _ => .io trivial
  install := .bind (tells_packageOf m) fun p => .bind (.ofExcept (gem_command_ne dir p)) fun _ =>
    .bind .command fun _ => tells_gem_verify _ _
  cleanup := .remove _

theorem heard_golang (dir : Path) (m : InstallMethod) : Heard muffled m (Golang.backend dir) where
  prepare := by
    refine .bind (tells_requireTool _ _ _) fun _ => .bind (.io trivial) fun _ => ?_
    refine .bind (.exists? _) fun there => ?_
    split
    · exact .command
    · exact .pure _
  install := .bind (tells_packageOf m) fun _ => .bind .command fun _ => .bind .command fun _ =>
    tells_golang_verify _ _
  cleanup := .bind (.remove _) fun _ => .remove _

theorem tells_checkout_verify (heard : ¬ muffled) (dir : Path) (p : Package) :
    Tells muffled (Checkout.verify dir p) := by
  unfold Checkout.verify
  split
  · exact .pure _
  · refine .pass (.capture heard) fun output => ?_
    dsimp only
    split
    · exact .pure _
    · exact tells_failed _ _

theorem heard_checkout (heard : ¬ muffled) (dir : Path) (m : InstallMethod) :
    Heard muffled m (Checkout.backend dir) where
  prepare := .bind (tells_requireTool _ _ _) fun _ => .bind (.io trivial) fun _ => .remove _
  install := by
    cases m with
    | sourceBuild p build =>
        refine .bind ?_ fun _ => .bind (tells_checkout_verify heard _ p) fun _ => .command
        unfold Checkout.fetch
        split
        · exact tells_failed _ _
        · exact .bind (.forEach fun c _ => .bind .command fun _ => .pure _) fun _ => .pure _
    | _ => exact tells_unsupported _
  cleanup := .remove _

theorem deaf_request (hops : Nat) (u : Url) : (Release.request hops u).Deaf := by
  induction hops generalizing u with
  | zero =>
      unfold Release.request
      refine .bind (.ask trivial) fun r => ?_
      cases r with
      | none => exact .pure _
      | some reply =>
          dsimp only
          split
          · exact .pure _
          · split
            · exact .pure _
            · split <;> exact .pure _
  | succ hops ih =>
      unfold Release.request
      refine .bind (.ask trivial) fun r => ?_
      cases r with
      | none => exact .pure _
      | some reply =>
          dsimp only
          split
          · exact ih _
          · split
            · exact .pure _
            · split <;> exact .pure _

theorem tells_download (url : String) (file : Path) : Tells muffled (Release.download url file) := by
  unfold Release.download
  refine .bind (.tell _) fun _ => ?_
  split
  · exact .fail nofun
  · refine .bind (.lift (deaf_request _ _)) fun r => ?_
    cases r with
    | error reason => exact .fail (e := .download url reason) nofun
    | ok reply =>
        refine .bind (.io trivial) fun _ => .unlessCancelled (.bind (.io trivial) fun _ => ?_)
        split
        · exact .awaitCancel
        · exact .fail nofun
        · split
          · exact .fail nofun
          · exact .tell _

theorem tells_unpack (dir asset : Path) : Tells muffled (Release.unpack dir asset) := by
  unfold Release.unpack
  split
  · exact .bind .command fun _ => .remove _
  · exact .bind .command fun _ => .remove _
  · exact .bind .command fun _ => .io trivial
  · exact .io trivial

theorem heard_release (dir : Path) (m : InstallMethod) : Heard muffled m (Release.backend dir) where
  prepare := .io trivial
  install := by
    cases m with
    | binaryDownload source url =>
        change Tells muffled (Release.install dir (.binaryDownload source url))
        simp only [Release.install]
        split
        · exact tells_failed _ _
        · refine .bind (tells_download _ _) fun _ => .bind (.ask (c := .readFile _) trivial) fun r => ?_
          split
          · exact tells_unpack _ _
          · exact tells_failed _ _
    | _ => exact tells_unsupported _
  cleanup := by
    refine .bind (.lift (.ask trivial)) fun r => ?_
    split
    · exact .pure _
    · exact .fail _
    · refine .bind (.forEach fun n _ => ?_) fun _ => .pure _
      split
      · exact .bind (.remove _) fun _ => .pure _
      · exact .pure _

/-- Every backend is heard, but for the query of a Python package. -/
theorem heard_ofMethod {m : InstallMethod} {dir : Path} {b : Backend}
    (chosen : Backend.ofMethod m dir = .ok b) : Heard (IsPython m) m b := by
  unfold Backend.ofMethod at chosen
  split at chosen
  · next p =>
      split at chosen
      · cases chosen; exact heard_npm dir _
      · cases chosen; exact heard_cargo dir _
      · next python => cases chosen; exact heard_pip python dir _
      · cases chosen; exact heard_gem dir _
      · cases chosen; exact heard_golang dir _
      · cases chosen
  · cases chosen; exact heard_release dir _
  · cases chosen; exact heard_checkout id dir _
  · cases chosen

end backends

end LanguageHost.Install
