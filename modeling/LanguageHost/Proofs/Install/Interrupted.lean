import LanguageHost.Proofs.Install.Failed

/-! Installs that stop for good before their end, and what the failures after them make of it. -/
namespace LanguageHost.Install
open Files
open Program (Runs)

/-- An idle installer for these paths. -/
structure Serves (i : Installer) (servers manifest : Path) (platform : Platform) : Prop where
  servers : i.servers = servers
  registry : i.configs.path = manifest
  platform : i.platform = platform
  idle : i.active = false

namespace Site
variable {servers : Path} {e : RegistryEntry} {manifest : Path} (s : Site servers e.name manifest)
  (platform : Platform)

/-- An install begins and is abandoned. -/
def Abandoned (t t' : Files) : Prop :=
  ∃ i, Serves i servers manifest platform ∧
    Runs (s.Fair (ownFiles (e.method platform))) t (i.install e) none t'

/-- An install fails. -/
def Failed (t t' : Files) : Prop :=
  ∃ i i' error, Serves i servers manifest platform ∧
    Runs (s.Fair (ownFiles (e.method platform))) t (i.install e) (some (.error error, i')) t'

/-- What a failure finds: where nothing is in place, the next install is at least attempted. -/
def Ready (t : Files) : Prop :=
  ∃ x y now, s.Resting x y now t ∧ Solid x ∧ (s.Fits → Solid y) ∧
    (x = none → ∃ p, plan servers e platform = .ok p)

/-- What stands at the path of the install, or else at that of the copy aside. -/
def found (t : Files) : Option Files :=
  (t.at? (s.cwd / s.path.text)).or (t.at? (s.cwd / s.asidePath.text))

variable {s platform} {x y before : Option Files} {start t t' : Files}

theorem found_eq (h : s.Resting x y before t) (fits : s.Fits) : s.found t = x.or y := by
  rw [found, h.at_path, h.at_asidePath fits]

theorem found_unfit (h : s.Resting x y before t) (unfit : ¬ s.Fits) : s.found t = x := by
  rw [found, h.at_path, at_unfit unfit h.sound, Option.or_none]

/-- A failure puts in place what it finds first, whatever that is. -/
theorem Failed.places (failed : s.Failed platform t t') (ready : s.Ready platform t) :
    s.Ready platform t' ∧ t'.at? (s.cwd / s.path.text) = s.found t ∧ s.found t' = s.found t := by
  obtain ⟨i, i', error, ⟨rfl, rfl, rfl, idle⟩, runs⟩ := failed
  obtain ⟨x, y, now, begun, hx, hy, planned⟩ := ready
  obtain ⟨undone, _⟩ := (s.holds_undone hx hy begun idle).ends rfl runs
  rcases undone with ⟨fits, after⟩ | ⟨after, unplanned⟩
  · refine ⟨⟨x.or y, none, now, after, hx.or (hy fits), fun _ => solid_none, fun gone => ?_⟩, ?_, ?_⟩
    · exact planned (Option.or_eq_none_iff.mp gone).1
    · rw [after.at_path, found_eq begun fits]
    · rw [found_eq after fits, found_eq begun fits, Option.or_none]
  · refine ⟨⟨x, y, now, after, hx, hy, planned⟩, ?_, ?_⟩
    · rw [after.at_path]
      by_cases fits : s.Fits
      · rw [found_eq begun fits]
        cases x with
        | some v => rfl
        | none =>
            obtain ⟨p, ok⟩ := planned rfl
            obtain ⟨error, refused⟩ := unplanned fits
            cases ok.symm.trans refused
      · rw [found_unfit begun fits]
    · by_cases fits : s.Fits
      · rw [found_eq after fits, found_eq begun fits]
      · rw [found_unfit after fits, found_unfit begun fits]

theorem places_of_failures (failures : Relation.TransGen (s.Failed platform) t t')
    (ready : s.Ready platform t) :
    s.Ready platform t' ∧ t'.at? (s.cwd / s.path.text) = s.found t ∧ s.found t' = s.found t := by
  induction failures with
  | single failed => exact failed.places ready
  | tail _ failed ih =>
      obtain ⟨ready, _, same⟩ := ih
      obtain ⟨ready, here, found⟩ := failed.places ready
      exact ⟨ready, here.trans same, found.trans same⟩

theorem Resting.ready {v : Files} (h : s.Resting (some v) y before t) (hv : Solid (some v))
    (hy : s.Fits → Solid y) : s.Ready platform t :=
  ⟨some v, y, before, h, hv, hy, fun gone => by cases gone⟩

/-- An abandoned install leaves what was in place there, or aside, or it has come to its end. -/
theorem Abandoned.leaves {v : Files} (abandoned : s.Abandoned platform start t)
    (begun : s.Resting (some v) y before start) (hv : Solid (some v)) (hy : s.Fits → Solid y) :
    s.Ready platform t ∧ (t.at? (s.cwd / s.path.text) = none →
      s.found t = some v ∨ s.found t = none ∧ s.Verified platform start none) := by
  obtain ⟨i, ⟨rfl, rfl, rfl, idle⟩, runs⟩ := abandoned
  have unchanged : ∀ t, s.Resting (some v) y before t → s.Ready i.platform t ∧
      (t.at? (s.cwd / s.path.text) = none →
        s.found t = some v ∨ s.found t = none ∧ s.Verified i.platform start none) := by
    refine fun t h => ⟨h.ready hv hy, fun gone => ?_⟩
    cases h.at_path.symm.trans gone
  cases planned : plan i.servers e i.platform with
  | error error =>
      have whole : Program.Holds (s.Fair (ownFiles (e.method i.platform))) (· = start) (i.install e)
          _ (· = start) :=
        holds_install idle (holds_run_unplanned planned) (fun _ _ h => h) fun _ h => h
      obtain rfl := whole.stops rfl runs
      exact unchanged _ begun
  | ok p =>
      rw [← (plan_cases planned).1] at runs
      by_cases fits : s.Fits
      · have whole := holds_install idle (holds_run_fits planned hv hy rfl begun fits)
          (fun _ _ h => h) fun t h => left_back h (hv.or (hy fits))
        obtain ⟨x, y', now, resting, hx, hy', kept⟩ := whole.stops rfl runs
        refine ⟨⟨x, y', now, resting, hx, hy', fun _ => ⟨p, planned⟩⟩, fun gone => ?_⟩
        rw [found_eq resting fits]
        rw [resting.at_path] at gone
        subst gone
        exact kept rfl
      · have whole := holds_install idle (holds_run_unfit planned hv hy rfl begun fits)
          (fun _ _ gone => .inl gone) fun _ h => .inr h
        rcases whole.stops rfl runs with gone | resting
        · cases gone
        · exact unchanged _ resting

end Site

namespace Sample

/-- The new version has only begun to arrive. -/
def begun : Files :=
  .dir [("m", .dir []), ("s", .dir [(".n.previous", version [1]), ("n", empty)])]

def cleared : Files := .dir [("m", .dir []), ("s", .dir [(".n.previous", version [1])])]

theorem kind_aside :
    Host.kind files (site.cwd / site.asidePath.text) true = .error .notFound :=
  fits.slot.kind_eq sound.extends_ground sound.base (by rintro target ⟨⟩)

theorem kind_path : Host.kind files (site.cwd / site.path.text) true = .ok .directory :=
  Site.place_slot.kind_eq sound.extends_ground sound.base (by rintro target ⟨⟩)

theorem rename_files : files.rename (site.cwd / site.path.text) (site.cwd / site.asidePath.text) =
    .ok cleared :=
  Site.place_slot.rename_eq sound.extends_ground rfl fits.slot (by decide) rfl

theorem makeDirs_cleared : cleared.makeDirs ⟨"/s/n"⟩ = .ok begun := by
  have written : check ⟨"/s/n"⟩ = .ok () := by decide
  have parts : Path.components ⟨"/s/n"⟩ = [.root, .name "s", .name "n"] := by cbv
  have servers (follow : Bool) : cleared.locate follow ⟨"/s"⟩ = .ok ["s"] := by
    have parts : Path.components ⟨"/s"⟩ = [.root, .name "s"] := by cbv
    rw [locate_eq (by decide), parts]
    cbv
  have place (follow : Bool) : cleared.locate follow ⟨"/s/n"⟩ = .ok ["s", "n"] := by
    rw [locate_eq written, parts]
    cbv
  rw [makeDirs, if_pos (by decide), written, parts]
  refine (makeDirsFrom_there (p := ⟨"/"⟩) (by cbv) (locate_root _) rfl).trans ?_
  refine (makeDirsFrom_there (p := ⟨"/s"⟩) (by cbv) servers rfl).trans ?_
  exact makeDirsFrom_new (p := ⟨"/s/n"⟩) (by cbv) place rfl

theorem abandoned : site.Abandoned installer.platform files begun := by
  refine ⟨installer, ⟨rfl, rfl, rfl, rfl⟩, ?_⟩
  rw [method]
  unfold Installer.install Installer.reserve
  change Runs _ _ (Program.bind _ _) _ _
  unfold run
  rw [planned]
  refine Quiet.kind (s := site) (p := site.asidePath) (quiet files) Site.aside_ne_empty kind_aside ?_
  refine Quiet.kind (s := site) (p := site.path) (quiet files) Site.path_ne_empty kind_path ?_
  refine Quiet.rename (s := site) (p := site.path) (q := site.asidePath) (quiet files) Site.path_ne_empty
    Site.aside_ne_empty rename_files ?_
  refine Quiet.makeDirs (s := site) (p := site.path) (quiet cleared) Site.path_ne_empty
    makeDirs_cleared ?_
  exact .abandoned

theorem failed : site.Failed installer.platform begun (outcome begun).2.files := by
  obtain ⟨error, ends⟩ := fails begun
  have run := runs (ownFiles (entry.method installer.platform)) begun
  rw [ends] at run
  exact ⟨installer, _, error, ⟨rfl, rfl, rfl, rfl⟩, run⟩

theorem sound_begun : site.Sound begun where
  extends_ground := extends_empty _
  base := clear_child (by rintro x ⟨⟩; rfl)
  home := clear_child (by rintro x ⟨⟩; rfl)
  draft target there := by cases there

theorem not_verified (t : Files) (x : Option Files) : ¬ site.Verified installer.platform t x := by
  rintro ⟨p, had, binary, _, _, _, _, _, _, ok, _, performed, _⟩
  cases planned.symm.trans ok
  exact (perform_fails never_installs entry _ _ _).ends trivial performed

end Sample

/-- Failures after an abandoned install put in place what that one has left there, or else the install
that it has set aside. So the install before comes back, or a whole new one is in place, just when the
abandoned one has left nothing in place, or the install before, or a whole new one. What it has left in
parts stays, and the install before is lost. -/
theorem abandoned_then_failed {servers manifest : Path} {e : RegistryEntry} {platform : Platform}
    (s : Site servers e.name manifest) {t₀ t₁ t₂ : Files} {v : Files} (sound : s.Sound t₀)
    (place : t₀.at? (s.cwd / s.path.text) = some v) (directory : v.isDirectory = true)
    (aside : ∀ target, t₀.at? (s.cwd / s.asidePath.text) ≠ some (.link target))
    (abandoned : s.Abandoned platform t₀ t₁)
    (failures : Relation.TransGen (s.Failed platform) t₁ t₂) :
    t₂.at? (s.cwd / s.path.text) =
      (t₁.at? (s.cwd / s.path.text)).or (t₁.at? (s.cwd / s.asidePath.text)) ∧
    (t₂.at? (s.cwd / s.path.text) = some v ∨
        s.Verified platform t₀ (t₂.at? (s.cwd / s.path.text)) ↔
      ∀ x, t₁.at? (s.cwd / s.path.text) = some x → x = v ∨ s.Verified platform t₀ (some x)) := by
  have begun := s.resting_of_sound sound
  have there : t₀.get? s.place = some v := begun.at_path.symm.trans place
  rw [there] at begun
  have hv : Solid (some v) := by
    rintro target ⟨⟩
    cases directory
  have hy : s.Fits → Solid (t₀.get? s.aside) :=
    fun fits target link => aside target ((begun.at_asidePath fits).trans link)
  obtain ⟨ready, kept⟩ := abandoned.leaves begun hv hy
  obtain ⟨_, after, _⟩ := Site.places_of_failures failures ready
  refine ⟨after, ?_⟩
  rw [after]
  cases here : t₁.at? (s.cwd / s.path.text) with
  | none =>
      refine ⟨fun _ x gone => (by cases gone), fun _ => ?_⟩
      rcases kept here with same | ⟨nothing, whole⟩
      · exact .inl same
      · exact .inr (nothing ▸ whole)
  | some x =>
      rw [Site.found, here, Option.some_or]
      constructor
      · rintro whole x' ⟨⟩
        exact whole.imp_left Option.some.inj
      · exact fun whole => (whole x rfl).imp_left (congrArg some)

theorem partial_download_stays :
    Sample.files.at? ⟨"/s/n"⟩ = some (Sample.version [1]) ∧
      (Sample.outcome Sample.begun).2.files.at? ⟨"/s/n"⟩ = some empty ∧
      ¬ ((Sample.outcome Sample.begun).2.files.at? ⟨"/s/n"⟩ = some (Sample.version [1]) ∨
        Sample.site.Verified Sample.installer.platform Sample.files
          ((Sample.outcome Sample.begun).2.files.at? ⟨"/s/n"⟩)) := by
  have place : Sample.files.at? ⟨"/s/n"⟩ = some (Sample.version [1]) := Sample.at_place Sample.sound
  have begun : Sample.begun.at? (Sample.site.cwd / Sample.site.path.text) = some empty :=
    Sample.at_place Sample.sound_begun
  have aside : ∀ target,
      Sample.files.at? (Sample.site.cwd / Sample.site.asidePath.text) ≠ some (.link target) := by
    intro target link
    cases (Sample.at_aside Sample.sound).symm.trans link
  obtain ⟨after, restored⟩ := abandoned_then_failed Sample.site Sample.sound place rfl aside
    Sample.abandoned (.single Sample.failed)
  rw [begun] at after restored
  refine ⟨place, after, fun whole => ?_⟩
  rcases restored.mp whole empty rfl with same | verified
  · cases same
  · exact Sample.not_verified _ _ verified

end LanguageHost.Install
