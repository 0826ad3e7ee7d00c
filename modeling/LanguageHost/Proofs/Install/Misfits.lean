import LanguageHost.Install.Installer
import LanguageHost.Proofs.Package.Resolution
import LanguageHost.Proofs.Program.Log

/-! What an identifier, an asset and a build are resolved to, and the backend that is chosen for it: whatever
can be resolved has a backend, and the backend is never given what it cannot install, but for a gem that is
to come from a repository. -/
namespace LanguageHost
open Program (Logged)

/-- The error of a backend that was given what another one installs, or no repository where it needs one. -/
def Error.IsMismatch (e : Error) : Prop :=
  (∃ what, e = .unsupportedSource (what ++ " install is not handled by this backend")) ∨
  (∃ what, e = .unsupportedSource (what ++ " install is not a release download")) ∨
  (∃ what, e = .unsupportedSource (what ++ " install is not a source build")) ∨
  ∃ name, e = .installFailed name "no repository URL"

/-- A gem that is to come from a repository, and what is said of it. -/
def InstallMethod.IsRefusedGem (m : InstallMethod) (text : String) : Prop :=
  ∃ p, m = .package p ∧ p.ecosystem = .gem ∧ p.repository.isSome ∧
    text = p.id ++ ": gem cannot install from a git repository"

/-- The error tells, in whatever words, that the backend cannot install what it was given. -/
def Error.IsMisfit : Error → Prop
  | .unsupportedSource _ => True
  | .installFailed _ reason => reason = "no repository URL"
  | _ => False

theorem Error.IsMismatch.isMisfit {e : Error} (mismatch : e.IsMismatch) : e.IsMisfit := by
  obtain ⟨what, rfl⟩ | ⟨what, rfl⟩ | ⟨what, rfl⟩ | ⟨name, rfl⟩ := mismatch
  · trivial
  · trivial
  · trivial
  · rfl

/-- What is said of a gem is none of the mismatches: it ends otherwise. -/
theorem InstallMethod.IsRefusedGem.not_isMismatch {m : InstallMethod} {text : String}
    (refused : m.IsRefusedGem text) : ¬ (Error.unsupportedSource text).IsMismatch := by
  obtain ⟨p, -, -, -, rfl⟩ := refused
  have apart {id what ending : String}
      (same : Error.unsupportedSource (id ++ ": gem cannot install from a git repository") =
        .unsupportedSource (what ++ ending)) (other : ending.toList.getLast? ≠ some 'y')
      (some : ending.toList ≠ []) : False := by
    have last := congrArg (fun text => text.toList.getLast?) (Error.unsupportedSource.inj same)
    simp only [String.toList_append, List.getLast?_append] at last
    cases ends : ending.toList.getLast? with
    | none => exact some (List.getLast?_eq_none_iff.mp ends)
    | some c =>
        rw [ends] at last other
        exact other last.symm
  rintro (⟨what, same⟩ | ⟨what, same⟩ | ⟨what, same⟩ | ⟨name, same⟩)
  · exact apart same (by decide) (by decide)
  · exact apart same (by decide) (by decide)
  · exact apart same (by decide) (by decide)
  · cases same

/-- A command fails in one of two ways. -/
theorem Host.execute_error {h : Host} {c : Command} {mode : RunMode} {e : Error}
    (failed : (h.execute c mode).1.outcome = .error e) :
    e = .cancelled ∨ ∃ command status, e = .commandFailed command status := by
  unfold execute at failed
  split at failed
  · cases failed
    exact .inl rfl
  · split at failed
    · cases failed
      exact .inr ⟨_, _, rfl⟩
    · dsimp only at failed
      split at failed
      · cases failed
        exact .inl rfl
      · split at failed
        · cases failed
          exact .inl rfl
        · dsimp only at failed
          split at failed
          · cases failed
          · cases failed
            exact .inr ⟨_, _, rfl⟩

theorem Host.not_isMisfit_execute {h : Host} {c : Command} {mode : RunMode} {e : Error}
    (failed : (h.execute c mode).1.outcome = .error e) : ¬ e.IsMisfit := by
  rcases execute_error failed with rfl | ⟨command, status, rfl⟩ <;> exact id

/-- Whatever machines answer its calls, the step does not fail for want of what it can install. -/
structure Installing.Fits (x : Installing α) : Prop where
  fit : ∀ {log : List Occasion} {t t' : Files} {o o' : Operation} {e : Error},
    Logged log t (x.run.run o) (.error e, o') t' → ¬ e.IsMisfit

namespace Installing.Fits

theorem pure (a : α) : Fits (Pure.pure a : Installing α) := by
  refine ⟨?_⟩
  rintro log t t' o o' e ⟨⟩

theorem fail {e : Error} (other : ¬ e.IsMisfit) : Fits (Installing.fail e : Installing α) := by
  refine ⟨?_⟩
  rintro log t t' o o' e ⟨⟩
  exact other

theorem ofExcept {r : Except Error α} (other : ∀ e, r = .error e → ¬ e.IsMisfit) :
    Fits (Installing.ofExcept r) := by
  cases r with
  | ok a => exact pure a
  | error e => exact fail (other e rfl)

theorem bind {x : Installing α} {f : α → Installing β} (first : Fits x) (second : ∀ a, Fits (f a)) :
    Fits (x >>= f) := by
  refine ⟨fun {log t t' o o' e} run => ?_⟩
  rw [run_bind] at run
  obtain ⟨before, after, ⟨a, o₁⟩, t₁, -, run, run'⟩ := Program.logged_bind run
  cases a with
  | error e =>
      cases run'
      exact first.fit run
  | ok a => exact (second a).fit run'

theorem lift (p : Program α) : Fits (Installing.lift p) := by
  refine ⟨fun {log t t' o o' e} run => ?_⟩
  obtain ⟨a, eq, -⟩ := Tells.logged_lift run
  cases eq

theorem update (f : Operation → Operation) : Fits (Installing.update f) := by
  refine ⟨?_⟩
  rintro log t t' o o' e ⟨⟩

theorem io (c : Call (Except IoError α)) : Fits (Installing.io c) := by
  refine bind (lift _) fun r => ?_
  cases r with
  | ok a => exact pure a
  | error e => exact fail id

theorem exists? (p : Path) : Fits (Installing.exists? p) := lift _

theorem tell (line : String) : Fits (Installing.tell line) := bind (lift _) fun _ => update _

theorem remove (p : Path) : Fits (Installing.remove p) := by
  refine bind (lift _) fun r => ?_
  cases r with
  | ok u => exact pure u
  | error e => exact fail id

theorem command (c : Command) : Fits (Installing.command c) := by
  refine ⟨fun {log t t' o o' e} run => ?_⟩
  obtain ⟨h, -, -, failed, -⟩ := Tells.logged_command run
  exact Host.not_isMisfit_execute failed.symm

/-- What a command that is captured prints, or its failure. -/
theorem capture {c : Command} {mode : RunMode} {f : String → Installing β} (next : ∀ a, Fits (f a)) :
    Fits (Installing.lift (LanguageHost.capture c mode) >>= fun r => Installing.ofExcept r >>= f) := by
  refine ⟨fun {log t t' o o' e} run => ?_⟩
  rw [run_bind] at run
  obtain ⟨before, after, ⟨a, o₁⟩, t₁, -, asked, run⟩ := Program.logged_bind run
  obtain ⟨answer, rfl, lifted⟩ := Tells.logged_lift asked
  obtain ⟨h, -, -, -, rfl⟩ := logged_capture lifted
  refine (bind (ofExcept fun e failed => ?_) next).fit run
  cases outcome : (h.execute c mode).1.outcome with
  | ok u =>
      rw [outcome] at failed
      cases failed
  | error e' =>
      rw [outcome] at failed
      cases failed
      exact Host.not_isMisfit_execute outcome

theorem tryCatch {x : Installing α} {f : Error → Installing α} (second : ∀ e, Fits (f e)) :
    Fits (tryCatch x f) := by
  refine ⟨fun {log t t' o o' e} run => ?_⟩
  rw [run_tryCatch] at run
  obtain ⟨before, after, ⟨a, o₁⟩, t₁, -, -, run⟩ := Program.logged_bind run
  cases a with
  | ok a => cases run
  | error e => exact (second e).fit run

theorem forEach {xs : List α} {f : α → Unit → Installing (ForInStep Unit)}
    (each : ∀ x ∈ xs, Fits (f x ())) : Fits (forIn xs () f) := by
  induction xs with
  | nil => exact pure ()
  | cons x xs ih =>
      rw [List.forIn_cons]
      refine bind (each x List.mem_cons_self) fun r => ?_
      cases r with
      | done u => exact pure u
      | yield u => exact ih fun y hy => each y (List.mem_cons_of_mem _ hy)

end Installing.Fits

namespace Install
open Installing (Fits)

theorem fits_failed {reason : String} (other : reason ≠ "no repository URL") (p : Package) :
    Fits (Backend.failed p reason : Installing α) := .fail other

theorem ne_of_head {s r : String} (apart : s.toList.head? ≠ r.toList.head?) : s ≠ r :=
  fun same => apart (congrArg (fun text => text.toList.head?) same)

theorem fits_readOrFail {reason : String} (other : reason ≠ "no repository URL") (p : Package)
    (file : Path) : Fits (Backend.readOrFail p file reason) := by
  refine .bind (.lift _) fun r => ?_
  cases r with
  | ok text => exact .pure _
  | error e => exact fits_failed other p

theorem fits_readJson (file : Path) : Fits (Npm.readJson file) := by
  refine .bind (.lift _) fun r => ?_
  cases r with
  | error e => exact .fail id
  | ok text =>
      dsimp only
      split
      · exact .pure _
      · exact .fail id

/-- A check of the version that was found. -/
theorem fits_expected {fit : Prop} [Decidable fit] (p : Package) (found : String) :
    Fits (if fit then pure () else
      Backend.failed p ("expected version " ++ p.version ++ ", found " ++ found)) := by
  split
  · exact .pure _
  · exact fits_failed (ne_of_head (by simp)) p

theorem fits_npm (dir : Path) (p : Package) : Fits (Npm.install dir (.package p)) := by
  refine .bind (.pure p) fun p => .bind (.command _) fun _ => .bind (fits_readJson _) fun manifest => ?_
  dsimp only
  split
  · exact fits_failed (by decide) p
  · split
    · exact .pure _
    · exact .bind (.tryCatch fun _ => fits_failed (by decide) p) fun _ => fits_expected p _

theorem fits_cargo (dir : Path) (p : Package) : Fits (Cargo.install dir (.package p)) := by
  refine .bind (.pure p) fun p => .bind (.command _) fun _ =>
    .bind (fits_readOrFail (by decide) p _) fun text => ?_
  split
  · exact .fail id
  · split
    · exact fits_failed (by decide) p
    · exact fits_expected p _

theorem fits_pip (dir : Path) (p : Package) : Fits (Pip.install dir (.package p)) := by
  refine .bind (.pure p) fun p => .bind (.io _) fun _ => .bind (.command _) fun _ =>
    .bind (.lift _) fun r => ?_
  cases r with
  | error e => exact fits_failed (by decide) p
  | ok output =>
      dsimp only
      split
      · exact fits_failed (by decide) p
      · exact fits_expected p _

theorem fits_golang (dir : Path) (p : Package) : Fits (Golang.install dir (.package p)) := by
  refine .bind (.pure p) fun p => .bind (.command _) fun _ => .bind (.command _) fun _ =>
    .bind (fits_readOrFail (by decide) p _) fun text => ?_
  split
  · exact fits_failed (by decide) p
  · split
    · exact .pure _
    · exact fits_failed (ne_of_head (by simp)) p

theorem fits_gem_verify (dir : Path) (p : Package) : Fits (Gem.verify dir p) := by
  unfold Gem.verify
  split
  · refine .bind (.lift _) fun r => ?_
    cases r with
    | error e => exact fits_failed (by decide) p
    | ok names =>
        dsimp only
        split
        · exact .pure _
        · exact fits_failed (by decide) p
  · refine .bind (.exists? _) fun there => ?_
    split
    · exact .pure _
    · refine fits_failed (fun same => ?_) p
      have last := congrArg (fun text => text.toList.getLast?) same
      simp at last

theorem fits_gem (dir : Path) {p : Package} (plain : p.repository = none) :
    Fits (Gem.install dir (.package p)) := by
  have possible : ∃ c, Gem.command dir p = .ok c := by
    unfold Gem.command
    rw [plain]
    exact ⟨_, rfl⟩
  obtain ⟨c, possible⟩ := possible
  change Fits (Installing.ofExcept (Gem.command dir p) >>= fun c => Installing.command c >>= fun _ =>
    Gem.verify dir p)
  rw [possible]
  exact .bind (.pure c) fun c => .bind (.command c) fun _ => fits_gem_verify dir p

theorem fits_download (url : String) (file : Path) : Fits (Release.download url file) := by
  have refuse (reason : String) : Fits (Installing.fail (.download url reason) : Installing Unit) :=
    .fail id
  unfold Release.download
  refine .bind (.tell _) fun _ => ?_
  split
  · exact refuse _
  · refine .bind (.lift _) fun r => ?_
    cases r with
    | error reason => exact refuse reason
    | ok reply =>
        refine .bind (.io _) fun _ => .bind (.lift _) fun stopped => ?_
        split
        · exact .fail id
        · refine .bind (.io _) fun _ => ?_
          split
          · exact .bind (.lift _) fun _ => .fail id
          · exact refuse _
          · split
            · exact refuse _
            · exact .tell _

theorem fits_unpack (dir asset : Path) : Fits (Release.unpack dir asset) := by
  unfold Release.unpack
  split
  · exact .bind (.command _) fun _ => .remove _
  · exact .bind (.command _) fun _ => .remove _
  · exact .bind (.command _) fun _ => .io _
  · exact .io _

theorem fits_release (dir : Path) (p : Package) (url : String) :
    Fits (Release.install dir (.binaryDownload p url)) := by
  simp only [Release.install]
  split
  · exact fits_failed (by decide) p
  · refine .bind (fits_download _ _) fun _ => .bind (.lift _) fun r => ?_
    split
    · exact fits_unpack _ _
    · exact fits_failed (by decide) p

theorem fits_checkout (dir : Path) {p : Package} (build : String) (kept : p.repository.isSome) :
    Fits (Checkout.install dir (.sourceBuild p build)) := by
  refine .bind ?_ fun _ => .bind ?_ fun _ => .command _
  · obtain ⟨url, kept⟩ := Option.isSome_iff_exists.mp kept
    unfold Checkout.fetch
    rw [kept]
    exact .bind (.forEach fun c _ => .bind (.command c) fun _ => .pure _) fun _ => .pure _
  · unfold Checkout.verify
    split
    · exact .pure _
    · refine .capture fun output => ?_
      dsimp only
      split
      · exact .pure _
      · exact fits_failed (ne_of_head (by simp)) p

theorem install_refusedGem (dir : Path) {p : Package} (kept : p.repository.isSome) :
    Gem.install dir (.package p) =
      Installing.fail (.unsupportedSource (p.id ++ ": gem cannot install from a git repository")) := by
  change (Installing.ofExcept (Gem.command dir p) >>= fun c => Installing.command c >>= fun _ =>
    Gem.verify dir p) = _
  unfold Gem.command
  rw [if_pos kept]
  rfl

/-- Whatever an origin is resolved to, the backend chosen for it installs, or it is a gem from a
repository and refused at once. -/
theorem fits_or_refused {origin : PackageOrigin} {platform : Platform} {m : InstallMethod}
    (resolved : origin.Resolved platform m) (dir : Path) : ∃ b, Backend.ofMethod m dir = .ok b ∧
      ((Fits (b.install m) ∧ ∀ text, ¬ m.IsRefusedGem text) ∨
        ∃ text, m.IsRefusedGem text ∧ b.install m = Installing.fail (.unsupportedSource text)) := by
  cases resolved with
  | @managed p read managed =>
      have unlike (other : p.ecosystem ≠ .gem) (text : String) :
          ¬ (InstallMethod.package p).IsRefusedGem text := by
        rintro ⟨p', same, gem, -⟩
        cases same
        exact other gem
      cases named : p.ecosystem with
      | npm =>
          exact ⟨Npm.backend dir, by simp only [Backend.ofMethod, named],
            .inl ⟨fits_npm dir p, unlike (by simp [named])⟩⟩
      | cargo =>
          exact ⟨Cargo.backend dir, by simp only [Backend.ofMethod, named],
            .inl ⟨fits_cargo dir p, unlike (by simp [named])⟩⟩
      | pypi =>
          exact ⟨Pip.backend dir, by simp only [Backend.ofMethod, named],
            .inl ⟨fits_pip dir p, unlike (by simp [named])⟩⟩
      | golang =>
          exact ⟨Golang.backend dir, by simp only [Backend.ofMethod, named],
            .inl ⟨fits_golang dir p, unlike (by simp [named])⟩⟩
      | github => exact absurd named managed
      | gem =>
          refine ⟨Gem.backend dir, by simp only [Backend.ofMethod, named], ?_⟩
          cases kept : p.repository with
          | none =>
              refine .inl ⟨fits_gem dir kept, ?_⟩
              rintro text ⟨p', same, -, some, -⟩
              cases same
              simp [kept] at some
          | some url =>
              have some : p.repository.isSome := by simp [kept]
              exact .inr ⟨_, ⟨p, rfl, named, some, rfl⟩, install_refusedGem dir some⟩
  | download read hosted asset expanded kept =>
      refine ⟨_, rfl, .inl ⟨fits_release dir _ _, ?_⟩⟩
      rintro text ⟨p', same, -⟩
      cases same
  | build read hosted kept asset built =>
      refine ⟨_, rfl, .inl ⟨fits_checkout dir _ kept, ?_⟩⟩
      rintro text ⟨p', same, -⟩
      cases same

/-- An origin is resolved to nothing just when its identifier is not read, or it names a repository with
an asset that does not expand, or with neither an asset nor a build. Anything else has a backend, which is
never given what it does not install; only a gem from a repository is refused. -/
theorem resolution_and_backends_agree (origin : PackageOrigin) (platform : Platform) :
    (origin.method platform = .unknown ↔
      Package.ofId? origin.id = none ∨
      (∃ p, Package.ofId? origin.id = some p ∧ p.ecosystem = .github ∧
        ∃ template e, origin.asset = some template ∧
          platform.expand template p.version = .error e) ∨
      ∃ p, Package.ofId? origin.id = some p ∧ p.ecosystem = .github ∧ origin.asset = none ∧
        origin.build = none) ∧
    (origin.method platform ≠ .unknown → ∀ dir,
      ∃ b, Backend.ofMethod (origin.method platform) dir = .ok b ∧
        ∀ log t t' o o' e, Logged log t ((b.install (origin.method platform)).run.run o) (.error e, o') t' →
          ¬ e.IsMismatch ∧
            ∀ text, e = .unsupportedSource text ↔ (origin.method platform).IsRefusedGem text) := by
  refine ⟨?_, fun some dir => ?_⟩
  · rw [PackageOrigin.method_eq_unknown_iff]
    constructor
    · intro unresolved
      cases unresolved with
      | unread unread => exact .inl unread
      | unexpanded read hosted asset failed => exact .inr (.inl ⟨_, read, hosted, _, _, asset, failed⟩)
      | bare read hosted asset built => exact .inr (.inr ⟨_, read, hosted, asset, built⟩)
    · rintro (unread | ⟨p, read, hosted, template, e, asset, failed⟩ | ⟨p, read, hosted, asset, built⟩)
      · exact .unread unread
      · exact .unexpanded read hosted asset failed
      · exact .bare read hosted asset built
  · have resolved := (PackageOrigin.unresolved_or_resolved origin platform).resolve_left fun unresolved =>
      some (PackageOrigin.method_eq_unknown_iff.mpr unresolved)
    obtain ⟨b, chosen, ⟨fits, kept⟩ | ⟨said, refused, failing⟩⟩ := fits_or_refused resolved dir
    · refine ⟨b, chosen, fun log t t' o o' e run => ⟨fun mismatch => ?_, fun text => ?_⟩⟩
      · exact fits.fit run mismatch.isMisfit
      · refine ⟨?_, fun refused => absurd refused (kept text)⟩
        rintro rfl
        exact absurd trivial (fits.fit run)
    · refine ⟨b, chosen, fun log t t' o o' e run => ?_⟩
      rw [failing] at run
      cases run
      refine ⟨refused.not_isMismatch, fun text => ⟨?_, fun refused' => ?_⟩⟩
      · rintro ⟨⟩
        exact refused
      · obtain ⟨p, same, -, -, rfl⟩ := refused
        obtain ⟨p', same', -, -, rfl⟩ := refused'
        cases same.symm.trans same'
        rfl

theorem solargraph_of_a_repository_is_refused :
    let id := "pkg:gem/solargraph@v1?repository_url=https://github.com/castwide/solargraph"
    let origin : PackageOrigin := ⟨id, some "solargraph-\x7bversion\x7d.gem", none⟩
    let m := origin.method ⟨"linux", "x86_64"⟩
    m ≠ .unknown ∧ ∃ b, Backend.ofMethod m ⟨"/servers/solargraph"⟩ = .ok b ∧
      ∀ log t t' o o' e, Logged log t ((b.install m).run.run o) (.error e, o') t' →
        ¬ e.IsMismatch ∧ e = .unsupportedSource (id ++ ": gem cannot install from a git repository") := by
  intro id origin m
  have resolved : m ≠ .unknown := by decide +kernel
  obtain ⟨b, chosen, failing⟩ :=
    (resolution_and_backends_agree origin ⟨"linux", "x86_64"⟩).2 resolved ⟨"/servers/solargraph"⟩
  refine ⟨resolved, b, chosen, fun log t t' o o' e run => ⟨(failing log t t' o o' e run).1, ?_⟩⟩
  obtain ⟨p, read, gem, kept, named⟩ : ∃ p, m = .package p ∧ p.ecosystem = .gem ∧ p.repository.isSome ∧
      p.id = id := by
    refine ⟨⟨id, .gem, "solargraph", "v1", some "https://github.com/castwide/solargraph",
      some (.tag "v1"), []⟩, by decide +kernel, rfl, rfl, rfl⟩
  exact ((failing log t t' o o' e run).2 _).mpr ⟨p, read, gem, kept, by rw [named]⟩

end Install

end LanguageHost
