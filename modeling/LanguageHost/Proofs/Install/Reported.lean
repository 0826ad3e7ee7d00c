import LanguageHost.Install.Installer
import LanguageHost.Proofs.Program.Log

/-! The lines that an install reports. Only what a backend prepares and installs reports lines, and the
output of an operation is what the calls have reported, in their order. -/
namespace LanguageHost
open Program (Logged)

/-- The lines that a call reports while it is answered. -/
def Occasion.lines (m : Occasion) : List String :=
  match m with
  | ⟨_, .tell line⟩ => [line]
  | ⟨h, .run c .reported⟩ => (h.execute c .reported).1.lines
  | _ => []

/-- The lines that calls have reported. -/
def reported (log : List Occasion) : List String := log.flatMap Occasion.lines

@[simp] theorem reported_nil : reported [] = [] := rfl

@[simp] theorem reported_append (log rest : List Occasion) :
    reported (log ++ rest) = reported log ++ reported rest := List.flatMap_append

@[simp] theorem reported_singleton (m : Occasion) : reported [m] = m.lines := List.flatMap_singleton ..

/-! Programs that report nothing. -/

/-- The call reports no line. -/
def Call.Mute : Call β → Prop
  | .run _ mode => mode ≠ .reported
  | .tell _ => False
  | _ => True

theorem Occasion.lines_of_mute {m : Occasion} (mute : m.call.Mute) : m.lines = [] := by
  obtain ⟨h, c⟩ := m
  cases c with
  | run c mode =>
      cases mode with
      | reported => exact absurd rfl mute
      | _ => rfl
  | tell line => exact mute.elim
  | _ => rfl

namespace Program

/-- None of the calls that the program can make reports a line. -/
def Mute : Program α → Prop
  | .done _ => True
  | .call c next => c.Mute ∧ ∀ b, (next b).Mute

theorem Logged.reported_of_mute {log : List Occasion} {t t' : Files} {p : Program α} {a : α}
    (run : Logged log t p a t') (mute : p.Mute) : reported log = [] := by
  induction run with
  | done => rfl
  | call _ _ ih =>
      rw [reported, List.flatMap_cons, Occasion.lines_of_mute mute.1]
      exact ih (mute.2 _)

namespace Mute

theorem pure (a : α) : (Pure.pure a : Program α).Mute := trivial

theorem ask {c : Call α} (mute : c.Mute) : (Program.ask c).Mute := ⟨mute, fun _ => trivial⟩

theorem bind {p : Program α} {f : α → Program β} (first : p.Mute) (second : ∀ a, (f a).Mute) :
    (p >>= f).Mute := by
  induction p with
  | done a => exact second a
  | call c next ih => exact ⟨first.1, fun b => ih b (first.2 b)⟩

theorem exists? (p : Path) : (Program.exists? p).Mute := .bind (.ask trivial) fun _ => .pure _

theorem readText (p : Path) : (Program.readText p).Mute := by
  refine .bind (.ask trivial) fun r => ?_
  cases r with
  | error e => exact .pure _
  | ok bs =>
      dsimp only
      split <;> exact .pure _

theorem removePath (p : Path) : (LanguageHost.removePath p).Mute := by
  refine .bind (.ask trivial) fun r => ?_
  cases r with
  | error e => cases e <;> exact .pure _
  | ok k => cases k <;> exact .bind (.ask trivial) fun _ => .pure _

theorem capture (c : Command) {mode : RunMode} (kept : mode ≠ .reported) :
    (LanguageHost.capture c mode).Mute := by
  refine .bind (.ask kept) fun report => ?_
  cases report.outcome <;> exact .pure _

/-- Steps of which each may fail, one after the other. -/
theorem bind_fallible {x : Fallible α} {f : α → Fallible β} (first : x.run.Mute)
    (second : ∀ a, (f a).run.Mute) : (x >>= f).run.Mute := by
  refine bind (p := x.run) first fun r => ?_
  cases r with
  | error error => exact .pure _
  | ok a => exact second a

theorem io {c : Call (Except IoError α)} (mute : c.Mute) : (Program.io c).run.Mute := by
  refine bind (.ask mute) fun r => ?_
  cases r <;> exact .pure _

end Mute

end Program

/-! Steps that report what they add to the output. -/

/-- The step reports the lines that it adds to the output, and no others. Where `silent`, none of the calls
that it can make reports one. -/
structure Installing.Reports (silent : Prop) (x : Installing α) : Prop where
  output : ∀ {log : List Occasion} {t t' : Files} {o o' : Operation} {r : Except Error α},
    Logged log t (x.run.run o) (r, o') t' → o'.output = o.output ++ reported log
  mute : silent → ∀ o, (x.run.run o).Mute

namespace Operation

@[simp] theorem output_addLine (o : Operation) (line : String) :
    (o.addLine line).output = o.output ++ [line] := rfl

@[simp] theorem output_addLines (o : Operation) (lines : List String) :
    (o.addLines lines).output = o.output ++ lines := by
  induction lines generalizing o with
  | nil => exact (List.append_nil _).symm
  | cons line lines ih =>
      refine (ih (o.addLine line)).trans ?_
      rw [output_addLine, List.append_assoc, List.singleton_append]

@[simp] theorem output_enter (o : Operation) (phase : Phase) (progress : Nat) :
    (o.enter phase progress).output = o.output := rfl

@[simp] theorem output_finish (o : Operation) (r : Except Error α) : (o.finish r).output = o.output := by
  cases r with
  | ok a => rfl
  | error e => cases e <;> rfl

end Operation

namespace Installing.Reports
variable {silent : Prop}

theorem of_silent {x : Installing α} (reports : Reports True x) : Reports silent x :=
  ⟨reports.output, fun _ => reports.mute trivial⟩

theorem pure (a : α) : Reports silent (Pure.pure a : Installing α) where
  output := by
    rintro log t t' o o' r ⟨⟩
    exact (List.append_nil _).symm
  mute _ _ := trivial

theorem fail (e : Error) : Reports silent (Installing.fail e : Installing α) where
  output := by
    rintro log t t' o o' r ⟨⟩
    exact (List.append_nil _).symm
  mute _ _ := trivial

theorem ofExcept (r : Except Error α) : Reports silent (Installing.ofExcept r) := by
  cases r with
  | ok a => exact pure a
  | error e => exact fail e

theorem enter (phase : Phase) (progress : Nat) :
    Reports silent (Installing.update (·.enter phase progress)) where
  output := by
    rintro log t t' o o' r ⟨⟩
    exact (List.append_nil _).symm
  mute _ _ := trivial

theorem bind {x : Installing α} {f : α → Installing β} (first : Reports silent x)
    (second : ∀ a, Reports silent (f a)) : Reports silent (x >>= f) where
  output := by
    intro log t t' o o' r run
    rw [run_bind] at run
    obtain ⟨before, after, ⟨a, o₁⟩, t₁, rfl, run, run'⟩ := Program.logged_bind run
    have added := first.output run
    cases a with
    | error e =>
        cases run'
        rw [List.append_nil]
        exact added
    | ok a => rw [(second a).output run', added, List.append_assoc, reported_append]
  mute quiet o := by
    rw [run_bind]
    refine .bind (first.mute quiet o) ?_
    rintro ⟨e | a, o'⟩
    · exact trivial
    · exact (second a).mute quiet o'

theorem lift {p : Program α} (mute : p.Mute) : Reports silent (Installing.lift p) where
  output := by
    intro log t t' o o' r run
    rw [run_lift] at run
    obtain ⟨before, after, a, t₁, rfl, run, run'⟩ := Program.logged_bind run
    cases run'
    rw [List.append_nil, run.reported_of_mute mute, List.append_nil]
  mute _ o := by
    rw [run_lift]
    exact .bind mute fun _ => trivial

theorem ask {c : Call α} (mute : c.Mute) : Reports silent (Installing.lift (Program.ask c)) :=
  lift (.ask mute)

theorem io {c : Call (Except IoError α)} (mute : c.Mute) : Reports silent (Installing.io c) := by
  refine bind (ask mute) fun r => ?_
  cases r with
  | ok a => exact pure a
  | error e => exact fail _

theorem exists? (p : Path) : Reports silent (Installing.exists? p) := lift (.exists? p)

theorem remove (p : Path) : Reports silent (Installing.remove p) := by
  refine bind (lift (.removePath p)) fun r => ?_
  cases r with
  | ok u => exact pure u
  | error e => exact fail _

theorem tell (loud : ¬ silent) (line : String) : Reports silent (Installing.tell line) where
  output := by
    intro log t t' o o' r run
    cases run with
    | call files on =>
        cases on with
        | done => rfl
  mute quiet := absurd quiet loud

theorem command (loud : ¬ silent) (c : Command) : Reports silent (Installing.command c) where
  output := by
    intro log t t' o o' r run
    unfold Installing.command at run
    rw [run_bind] at run
    obtain ⟨before, after, ⟨a, o₁⟩, t₁, rfl, asked, run⟩ := Program.logged_bind run
    rw [run_lift] at asked
    obtain ⟨before, last, report, t₂, rfl, asked, done⟩ := Program.logged_bind asked
    obtain ⟨h, rfl, rfl, rfl, rfl⟩ := Program.logged_ask asked
    cases done
    change Logged after _ ((Installing.ofExcept (h.execute c .reported).1.outcome).run.run
      (o.addLines (h.execute c .reported).1.lines)) _ _ at run
    have ends : Reports silent (Installing.ofExcept (h.execute c .reported).1.outcome) := ofExcept _
    have added := ends.output run
    rw [added, Operation.output_addLines, List.append_assoc, List.append_nil, reported_append,
      reported_singleton]
    rfl
  mute quiet := absurd quiet loud

theorem map {x : Installing α} (reports : Reports silent x) (f : α → β) : Reports silent (f <$> x) where
  output := by
    intro log t t' o o' r run
    rw [run_map] at run
    obtain ⟨before, after, ⟨a, o₁⟩, t₁, rfl, run, run'⟩ := Program.logged_bind run
    have added := reports.output run
    cases a <;> cases run' <;> rw [List.append_nil] <;> exact added
  mute quiet o := by
    rw [run_map]
    refine .bind (reports.mute quiet o) ?_
    rintro ⟨e | a, o'⟩ <;> exact trivial

theorem tryCatch {x : Installing α} {f : Error → Installing α} (first : Reports silent x)
    (second : ∀ e, Reports silent (f e)) : Reports silent (tryCatch x f) where
  output := by
    intro log t t' o o' r run
    rw [run_tryCatch] at run
    obtain ⟨before, after, ⟨a, o₁⟩, t₁, rfl, run, run'⟩ := Program.logged_bind run
    have added := first.output run
    cases a with
    | ok a =>
        cases run'
        rw [List.append_nil]
        exact added
    | error e => rw [(second e).output run', added, List.append_assoc, reported_append]
  mute quiet o := by
    rw [run_tryCatch]
    refine .bind (first.mute quiet o) ?_
    rintro ⟨e | a, o'⟩
    · exact (second e).mute quiet o'
    · exact trivial

theorem forEach {xs : List α} {f : α → Unit → Installing (ForInStep Unit)}
    (each : ∀ x ∈ xs, Reports silent (f x ())) : Reports silent (forIn xs () f) := by
  induction xs with
  | nil => exact pure ()
  | cons x xs ih =>
      rw [List.forIn_cons]
      refine bind (each x List.mem_cons_self) fun r => ?_
      cases r with
      | done u => exact pure u
      | yield u => exact ih fun y hy => each y (List.mem_cons_of_mem _ hy)

end Installing.Reports

namespace Install
open Installing (Reports)

section backends
variable {silent : Prop}

theorem reports_packageOf (m : InstallMethod) : Reports silent (Backend.packageOf m) := by
  cases m with
  | package source => exact .pure _
  | _ => exact .fail _

theorem mute_detect (tool : String) (args : List String) (version : List VersionPart) :
    (Backend.detect tool args version).Mute := by
  refine .bind (.ask trivial) fun file => ?_
  cases file with
  | none => exact .pure _
  | some file =>
      refine .bind (.capture _ (by decide)) fun r => ?_
      cases r <;> exact .pure _

theorem reports_requireTool (tool : String) (args : List String) (version : List VersionPart) :
    Reports silent (Backend.requireTool tool (Backend.detect tool args version)) := by
  refine .bind (.lift (mute_detect tool args version)) fun there => ?_
  cases there with
  | true => exact .pure _
  | false => exact .fail _

theorem reports_readOrFail (p : Package) (file : Path) (reason : String) :
    Reports silent (Backend.readOrFail p file reason) := by
  refine .bind (.lift (.readText file)) fun r => ?_
  cases r with
  | ok text => exact .pure _
  | error e => exact .fail _

theorem reports_readJson (file : Path) : Reports silent (Npm.readJson file) := by
  refine .bind (.lift (.readText file)) fun r => ?_
  cases r with
  | error e => exact .fail _
  | ok text =>
      dsimp only
      split
      · exact .pure _
      · exact .fail _

theorem reports_npm_verify (dir : Path) (p : Package) : Reports silent (Npm.verify dir p) := by
  refine .bind (reports_readJson _) fun manifest => ?_
  dsimp only
  split
  · exact .fail _
  · split
    · exact .pure _
    · refine .bind (.tryCatch (reports_readJson _) fun _ => .fail _) fun installed => ?_
      split
      · exact .pure _
      · exact .fail _

theorem reports_cargo_verify (dir : Path) (p : Package) : Reports silent (Cargo.verify dir p) := by
  refine .bind (reports_readOrFail _ _ _) fun text => ?_
  split
  · exact .fail _
  · split
    · exact .fail _
    · split
      · exact .pure _
      · exact .fail _

theorem reports_pip_verify (dir : Path) (p : Package) : Reports silent (Pip.verify dir p) := by
  refine .bind (.lift (.capture _ (by decide))) fun r => ?_
  cases r with
  | error e => exact .fail _
  | ok output =>
      dsimp only
      split
      · exact .fail _
      · split
        · exact .pure _
        · exact .fail _

theorem reports_gem_verify (dir : Path) (p : Package) : Reports silent (Gem.verify dir p) := by
  unfold Gem.verify
  split
  · refine .bind (.ask trivial) fun r => ?_
    cases r with
    | error e => exact .fail _
    | ok names =>
        dsimp only
        split
        · exact .pure _
        · exact .fail _
  · refine .bind (.exists? _) fun there => ?_
    split
    · exact .pure _
    · exact .fail _

theorem reports_golang_verify (dir : Path) (p : Package) : Reports silent (Golang.verify dir p) := by
  refine .bind (reports_readOrFail _ _ _) fun text => ?_
  split
  · exact .fail _
  · split
    · exact .pure _
    · exact .fail _

theorem reports_checkout_verify (dir : Path) (p : Package) : Reports silent (Checkout.verify dir p) := by
  unfold Checkout.verify
  split
  · exact .pure _
  · refine .bind (.lift (.capture _ (by decide))) fun r => .bind (.ofExcept r) fun output => ?_
    dsimp only
    split
    · exact .pure _
    · exact .fail _

theorem mute_request (hops : Nat) (u : Url) : (Release.request hops u).Mute := by
  induction hops generalizing u with
  | zero =>
      unfold Release.request
      refine .bind (.ask trivial) fun r => ?_
      cases r with
      | none => exact .pure _
      | some reply =>
          dsimp only
          split
          · exact .pure _
          · split
            · exact .pure _
            · split <;> exact .pure _
  | succ hops ih =>
      unfold Release.request
      refine .bind (.ask trivial) fun r => ?_
      cases r with
      | none => exact .pure _
      | some reply =>
          dsimp only
          split
          · exact ih _
          · split
            · exact .pure _
            · split <;> exact .pure _

theorem reports_download (loud : ¬ silent) (url : String) (file : Path) :
    Reports silent (Release.download url file) := by
  unfold Release.download
  refine .bind (.tell loud _) fun _ => ?_
  split
  · exact .fail _
  · refine .bind (.lift (mute_request _ _)) fun r => ?_
    cases r with
    | error reason => exact .fail _
    | ok reply =>
        refine .bind (.io trivial) fun _ => .bind (.ask trivial) fun cancelled => ?_
        split
        · exact .fail _
        · refine .bind (.io trivial) fun _ => ?_
          split
          · exact .bind (.ask trivial) fun _ => .fail _
          · exact .fail _
          · split
            · exact .fail _
            · exact .tell loud _

theorem reports_unpack (loud : ¬ silent) (dir asset : Path) : Reports silent (Release.unpack dir asset) := by
  unfold Release.unpack
  split
  · exact .bind (.command loud _) fun _ => .remove _
  · exact .bind (.command loud _) fun _ => .remove _
  · exact .bind (.command loud _) fun _ => .io trivial
  · exact .io trivial

/-! Whole backends. -/

/-- What the backend prepares and installs reports the lines that it adds to the output, and its cleanup
reports none. -/
structure Vocal (m : InstallMethod) (b : Backend) : Prop where
  prepare : Reports False b.prepare
  install : Reports False (b.install m)
  cleanup : Reports True b.cleanup

theorem vocal_npm (dir : Path) (m : InstallMethod) : Vocal m (Npm.backend dir) where
  prepare := by
    refine .bind (reports_requireTool _ _ _) fun _ => .bind (.io trivial) fun _ => ?_
    refine .bind (.exists? _) fun there => ?_
    dsimp only
    split
    · exact .bind (.command id _) fun _ => .io trivial
    · exact .io trivial
  install := .bind (reports_packageOf m) fun _ => .bind (.command id _) fun _ => reports_npm_verify _ _
  cleanup := .bind (.remove _) fun _ => .remove _

theorem vocal_cargo (dir : Path) (m : InstallMethod) : Vocal m (Cargo.backend dir) where
  prepare := .bind (reports_requireTool _ _ _) fun _ => .io trivial
  install := .bind (reports_packageOf m) fun _ => .bind (.command id _) fun _ => reports_cargo_verify _ _
  cleanup := .pure _

theorem vocal_pip (dir : Path) (m : InstallMethod) : Vocal m (Pip.backend dir) where
  prepare := by
    refine .bind (reports_requireTool _ _ _) fun _ => .bind (.io trivial) fun _ => ?_
    refine .bind (.exists? _) fun there => ?_
    dsimp only
    split
    · exact .bind (.command id _) fun _ => .io trivial
    · exact .io trivial
  install := .bind (reports_packageOf m) fun _ => .bind (.io trivial) fun _ =>
    .bind (.command id _) fun _ => reports_pip_verify _ _
  cleanup := by
    refine .bind (.exists? _) fun there => ?_
    split
    · exact .io trivial
    · exact .pure _

theorem vocal_gem (dir : Path) (m : InstallMethod) : Vocal m (Gem.backend dir) where
  prepare := .bind (reports_requireTool _ _ _) fun _ => .io trivial
  install := .bind (reports_packageOf m) fun _ => .bind (.ofExcept _) fun _ =>
    .bind (.command id _) fun _ => reports_gem_verify _ _
  cleanup := .remove _

theorem vocal_golang (dir : Path) (m : InstallMethod) : Vocal m (Golang.backend dir) where
  prepare := by
    refine .bind (reports_requireTool _ _ _) fun _ => .bind (.io trivial) fun _ => ?_
    refine .bind (.exists? _) fun there => ?_
    split
    · exact .command id _
    · exact .pure _
  install := .bind (reports_packageOf m) fun _ => .bind (.command id _) fun _ =>
    .bind (.command id _) fun _ => reports_golang_verify _ _
  cleanup := .bind (.remove _) fun _ => .remove _

theorem vocal_checkout (dir : Path) (m : InstallMethod) : Vocal m (Checkout.backend dir) where
  prepare := .bind (reports_requireTool _ _ _) fun _ => .bind (.io trivial) fun _ => .remove _
  install := by
    cases m with
    | sourceBuild _ _ =>
        refine .bind ?_ fun _ => .bind (reports_checkout_verify _ _) fun _ => .command id _
        unfold Checkout.fetch
        split
        · exact .fail _
        · exact .bind (.forEach fun c _ => .bind (.command id c) fun _ => .pure _) fun _ => .pure _
    | _ => exact .fail _
  cleanup := .remove _

theorem vocal_release (dir : Path) (m : InstallMethod) : Vocal m (Release.backend dir) where
  prepare := .io trivial
  install := by
    cases m with
    | binaryDownload source url =>
        change Reports False (Release.install dir (.binaryDownload source url))
        simp only [Release.install]
        split
        · exact .fail _
        · refine .bind (reports_download id _ _) fun _ => .bind (.ask (c := .readFile _) trivial) fun r => ?_
          split
          · exact reports_unpack id _ _
          · exact .fail _
    | _ => exact .fail _
  cleanup := by
    refine .bind (.ask trivial) fun r => ?_
    split
    · exact .pure _
    · exact .fail _
    · refine .bind (.forEach fun n _ => ?_) fun _ => .pure _
      split
      · exact .bind (.remove _) fun _ => .pure _
      · exact .pure _

theorem vocal_ofMethod {m : InstallMethod} {dir : Path} {b : Backend}
    (chosen : Backend.ofMethod m dir = .ok b) : Vocal m b := by
  unfold Backend.ofMethod at chosen
  split at chosen
  · split at chosen
    · cases chosen; exact vocal_npm dir _
    · cases chosen; exact vocal_cargo dir _
    · cases chosen; exact vocal_pip dir _
    · cases chosen; exact vocal_gem dir _
    · cases chosen; exact vocal_golang dir _
    · cases chosen
  · cases chosen; exact vocal_release dir _
  · cases chosen; exact vocal_checkout dir _
  · cases chosen

end backends

end Install

end LanguageHost
