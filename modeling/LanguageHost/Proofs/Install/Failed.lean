import Mathlib
import LanguageHost.Proofs.Install.Rollback
import LanguageHost.Proofs.Install.Quiet

/-! What a caller sees of an install that fails: nothing has happened. -/
namespace LanguageHost.Install
open Files
open Program (Runs Either)

namespace Site
variable {servers : Path} {e : RegistryEntry} {manifest : Path} {s : Site servers e.name manifest}
  {before x y : Option Files}

/-! What stands at the paths of an install. -/

theorem resting_of_sound {t : Files} (sound : s.Sound t) :
    s.Resting (t.get? s.place) (t.get? s.aside) (t.get? s.manifestPlace) t :=
  ⟨sound, rfl, rfl, rfl⟩

theorem Resting.at_path {t : Files} (h : s.Resting x y before t) :
    t.at? (s.cwd / s.path.text) = x := by
  rw [place_slot.at?_eq h.sound.extends_ground h.sound.base]
  exact h.place

theorem Resting.at_asidePath {t : Files} (h : s.Resting x y before t) (fits : s.Fits) :
    t.at? (s.cwd / s.asidePath.text) = y := by
  rw [fits.slot.at?_eq h.sound.extends_ground h.sound.base]
  exact h.aside

theorem at_unfit {t : Files} (unfit : ¬ s.Fits) (sound : s.Sound t) :
    t.at? (s.cwd / s.asidePath.text) = none := by
  unfold at?
  cases found : t.locate false (s.cwd / s.asidePath.text) with
  | ok ns => exact absurd found (not_located unfit sound false ns)
  | error e => rfl

theorem Resting.at_manifest {t : Files} (h : s.Resting x y before t) :
    t.at? (s.cwd / manifest.text) = before := by
  rw [s.manifest_slot.at?_eq h.sound.extends_ground h.sound.home]
  exact h.manifest

end Site

/-- An install that has not been refused at once is its run, and a failure leaves what is configured as
it was. -/
theorem holds_install {fair : Fairness} {P E C : Files → Prop} {i : Installer} {e : RegistryEntry}
    {Q : ServerBinary × ServerConfigs → Files → Prop} (idle : i.active = false)
    (whole : Installing.Holds fair P (run i.servers i.configs e i.platform) Q E C)
    (done : ∀ r t, Q r t → C t) (failed : ∀ t, E t → C t) :
    Program.Holds fair P (i.install e)
      (fun r => Either (fun binary => Q (binary, r.2.configs))
        (fun t => E t ∧ r.2.configs = i.configs) r.1) C := by
  unfold Installer.install Installer.reserve
  rw [idle]
  refine (whole (.start e.name)).bind ?_
  rintro ⟨error | ⟨binary, configs⟩, o⟩
  · exact .pure (fun t h => ⟨h, rfl⟩) failed
  · exact .pure (fun t h => h) (done _)

theorem holds_run_unplanned {fair : Fairness} {servers : Path} {configs : ServerConfigs}
    {e : RegistryEntry} {platform : Platform} {error : Error} {P : Files → Prop}
    (unplanned : plan servers e platform = .error error) :
    Installing.Holds fair P (run servers configs e platform) (fun _ => P) P P := by
  unfold run
  rw [unplanned]
  exact .fail (fun _ h => h) fun _ h => h

/-- An install that has failed has undone what it did, or has done nothing. -/
def Site.Undone {servers : Path} {e : RegistryEntry} {manifest : Path} (s : Site servers e.name manifest)
    (platform : Platform) (x y before : Option Files) (t : Files) : Prop :=
  s.Fits ∧ s.Resting (x.or y) none before t ∨
    s.Resting x y before t ∧ (s.Fits → ∃ error, plan servers e platform = .error error)

theorem Site.holds_undone {i : Installer} {e : RegistryEntry} {s : Site i.servers e.name i.configs.path}
    {x y before : Option Files} {start : Files} (hx : Solid x) (hy : s.Fits → Solid y)
    (begun : s.Resting x y before start) (idle : i.active = false) :
    Program.Holds (s.Fair (ownFiles (e.method i.platform))) (· = start) (i.install e)
      (fun r => Either (fun _ _ => True)
        (fun t => s.Undone i.platform x y before t ∧ r.2.configs = i.configs) r.1)
      fun _ => True := by
  refine holds_install (Q := fun _ _ => True) idle ?_ (fun _ _ _ => trivial) fun _ _ => trivial
  cases planned : plan i.servers e i.platform with
  | error error =>
      refine (holds_run_unplanned planned).mono (fun _ h => h) (fun _ _ _ => trivial) ?_
        fun _ _ => trivial
      rintro _ rfl
      exact .inr ⟨begun, fun _ => ⟨error, planned⟩⟩
  | ok p =>
      rw [← (plan_cases planned).1]
      by_cases fits : s.Fits
      · exact (holds_run_fits planned hx hy rfl begun fits).mono (fun _ h => h) (fun _ _ _ => trivial)
          (fun t h => .inl ⟨fits, h⟩) fun _ _ => trivial
      · exact (holds_run_unfit planned hx hy rfl begun fits).mono (fun _ h => h) (fun _ _ _ => trivial)
          (fun t h => .inr ⟨h, fun h => absurd h fits⟩) fun _ _ => trivial

/-! An install that cannot end well. -/

/-- The step never ends well. -/
abbrev Fails (fair : Fairness) (x : Installing α) : Prop :=
  Installing.Holds fair (fun _ => True) x (fun _ _ => False) (fun _ => True) fun _ => True

theorem holds_anything {fair : Fairness} (x : Installing α) :
    Installing.Holds fair (fun _ => True) x (fun _ _ => True) (fun _ => True) fun _ => True := by
  intro o
  constructor
  · rintro t ⟨e | a, o'⟩ t' _ _ <;> trivial
  · exact fun _ _ => trivial

theorem fails_bind {fair : Fairness} (x : Installing α) {f : α → Installing β}
    (second : ∀ a, Fails fair (f a)) : Fails fair (x >>= f) :=
  (holds_anything x).bind second fun _ _ => trivial

theorem perform_fails {fair : Fairness} {b : Backend} {m : InstallMethod}
    (backend : Fails fair (b.install m)) (e : RegistryEntry) (version : String) (platform : Platform) :
    Fails fair (perform b e m version platform) := by
  refine fails_bind _ fun _ => fails_bind _ fun _ => fails_bind _ fun _ => ?_
  exact backend.bind (fun _ => .never) fun _ _ => trivial

/-- Without a backend that installs there is no install. -/
theorem install_fails {fair : Fairness} {i : Installer} {e : RegistryEntry} {p : Plan}
    (planned : plan i.servers e i.platform = .ok p) (idle : i.active = false)
    (backend : Fails fair (p.backend.install p.method)) :
    Program.Holds fair (fun _ => True) (i.install e) (fun r _ => ∃ error, r.1 = .error error)
      fun _ => True := by
  have attempted : Fails fair (attempt i.configs e p i.platform) :=
    (perform_fails backend e _ _).bind (fun _ => .never) fun _ _ => trivial
  have tried : Installing.Holds fair (fun _ => True)
      (tryCatch (Except.ok <$> attempt i.configs e p i.platform) fun error => pure (.error error))
      (fun r _ => ∃ error, r = .error error) (fun _ => True) fun _ => True := by
    refine .tryCatch (F := fun _ => True) ?_ (fun error => ?_) fun _ _ _ => trivial
    · exact .map (attempted.mono (fun _ h => h) (fun _ _ h => h.elim) (fun _ h => h) fun _ h => h)
        (fun _ _ _ => trivial) fun _ _ => trivial
    · exact .pure (fun _ _ => ⟨error, rfl⟩) fun _ _ => trivial
  have whole : Fails fair (run i.servers i.configs e i.platform) := by
    unfold run
    rw [planned]
    refine fails_bind _ fun had => tried.bind (fun r => ?_) fun _ _ => trivial
    refine .of_fact (fun t h => h) fun error => ?_
    obtain ⟨error, rfl⟩ := error
    refine Installing.Holds.bind (R := fun _ _ => True) ?_ (fun _ => .fail ?_ ?_) fun _ _ => trivial
    · exact (holds_anything _).mono (fun _ _ => trivial) (fun _ _ h => h) (fun _ h => h) fun _ h => h
    · exact fun _ _ => trivial
    · exact fun _ _ => trivial
  refine (holds_install idle whole (fun _ _ h => h.elim) fun _ h => h).mono (fun _ h => h) ?_
    fun _ h => h
  rintro ⟨error | binary, i'⟩ t h
  · exact ⟨error, rfl⟩
  · exact False.elim h

theorem release_fails {fair : Fairness} {dir : Path} {p : Package} {url : String}
    (nameless : Release.assetName? url = none) :
    Fails fair (Release.install dir (.binaryDownload p url)) := by
  unfold Release.install
  simp only [nameless]
  exact .fail (fun _ h => h) fun _ h => h

/-! A quiet machine, with an install that can only fail: the asset has no name. -/

namespace Sample

def version (content : Octets) : Files := .dir [("server", .file content true)]

def files : Files := .dir [("m", .dir []), ("s", .dir [("n", version [1])])]

def entry : RegistryEntry where
  name := "n"
  description := ""
  homepage := none
  licenses := []
  languages := []
  extensions := []
  source := ⟨"pkg:github/o/n@v1", some "", none⟩
  executables := ⟨"server", [], []⟩
  initOptions := none

def installer : Installer := .ofConfigs ⟨"/s"⟩ ⟨Manifest.json, ⟨"/m/i.json"⟩, [], []⟩ ⟨"linux", "x86_64"⟩

def source : Package where
  id := "pkg:github/o/n@v1"
  ecosystem := .github
  name := "o/n"
  version := "v1"
  repository := some "https://github.com/o/n"
  pin := some (.tag "v1")
  options := []

def url : String := "https://github.com/o/n/releases/download/v1/"

def host (t : Files) : Host where
  files := t
  cwd := ⟨"/"⟩
  env := []
  accountHome := none
  programs _ _ := ⟨[], .exit 0⟩
  network _ _ := none
  clock := ""
  trigger := .never
  isCancelled := false
  faults _ := none
  operations := 0
  started := []
  told := []

theorem quiet (t : Files) : Quiet ⟨"/"⟩ (host t) := ⟨rfl, fun _ => rfl, fun _ _ => rfl⟩

theorem isAbsolute_cwd : Path.isAbsolute ⟨"/"⟩ = true := by decide

theorem manifest_loose : ∀ x, empty.get? (["m"] ++ ["i.json"]) = some x →
    ∃ content executable, x = .file content executable := by
  rintro x ⟨⟩

def site : Site installer.servers entry.name installer.configs.path where
  cwd := ⟨"/"⟩
  ground := empty
  base := ["s"]
  home := ["m"]
  file := "i.json"
  absolute := isAbsolute_cwd
  name_ordinary := by decide
  name_short := by decide
  place_written := by decide
  servers_way := way_child "s" (by decide)
  manifest_slot := ⟨by decide, by decide, [.root, .name "m"], by cbv, way_child "m" (by decide)⟩
  manifest_file := by decide
  place_loose := rfl
  aside_loose := rfl
  manifest_loose := manifest_loose
  apart := by decide

theorem sound : site.Sound files where
  extends_ground := extends_empty _
  base := clear_child (by rintro x ⟨⟩; rfl)
  home := clear_child (by rintro x ⟨⟩; rfl)
  draft target there := by cases there

theorem method : entry.method installer.platform = .binaryDownload source url := by cbv

theorem planned : plan installer.servers entry installer.platform =
    .ok ⟨.binaryDownload source url, source, Release.backend ⟨"/s/n"⟩⟩ := by
  unfold plan
  rw [method]
  rfl

/-- What the install does to these files. -/
def outcome (t : Files) : (Except Error ServerBinary × Installer) × Host :=
  (installer.install entry).run (host t)

theorem runs (own : List String) (t : Files) : Runs (site.Fair own) t (installer.install entry)
    (some (outcome t).1) (outcome t).2.files :=
  Quiet.runs (s := site) (quiet t) (installer.install entry)

theorem never_installs {fair : Fairness} :
    Fails fair (Release.install ⟨"/s/n"⟩ (.binaryDownload source url)) :=
  release_fails (by cbv)

theorem fails (t : Files) : ∃ error, (outcome t).1 = (.error error, (outcome t).1.2) := by
  obtain ⟨error, failed⟩ := (install_fails planned rfl never_installs).ends trivial (runs [] t)
  exact ⟨error, Prod.ext failed rfl⟩

theorem fits : site.Fits := ⟨by decide, by decide⟩

theorem at_place {t : Files} (sound : site.Sound t) : t.at? ⟨"/s/n"⟩ = t.get? ["s", "n"] :=
  (site.resting_of_sound sound).at_path

theorem at_aside {t : Files} (sound : site.Sound t) :
    t.at? ⟨"/s/.n.previous"⟩ = t.get? ["s", ".n.previous"] :=
  (site.resting_of_sound sound).at_asidePath fits

end Sample

/-- An idle installer's install that fails has put everything back. -/
theorem Site.restored {i i' : Installer} {e : RegistryEntry} {error : Error}
    {s : Site i.servers e.name i.configs.path} {t t' : Files} (sound : s.Sound t)
    (place : ∀ x, t.at? (s.cwd / s.path.text) = some x → x.isDirectory = true)
    (aside : t.at? (s.cwd / s.asidePath.text) = none) (idle : i.active = false)
    (runs : Runs (s.Fair (ownFiles (e.method i.platform))) t (i.install e) (some (.error error, i'))
      t') :
    t'.at? (s.cwd / s.path.text) = t.at? (s.cwd / s.path.text) ∧
      t'.at? (s.cwd / s.asidePath.text) = none ∧
      t'.at? (s.cwd / i.configs.path.text) = t.at? (s.cwd / i.configs.path.text) ∧
      i'.configs = i.configs := by
  have begun := s.resting_of_sound sound
  have solid : Solid (t.get? s.place) := by
    intro target there
    cases place _ (begun.at_path.trans there)
  have absent : s.Fits → t.get? s.aside = none :=
    fun fits => (begun.at_asidePath fits).symm.trans aside
  have whole := s.holds_undone solid (fun fits => absent fits ▸ solid_none) begun idle
  obtain ⟨⟨fits, after⟩ | ⟨after, _⟩, same⟩ := whole.ends rfl runs
  · rw [absent fits, Option.or_none] at after
    exact ⟨after.at_path.trans begun.at_path.symm, after.at_asidePath fits,
      after.at_manifest.trans begun.at_manifest.symm, same⟩
  · refine ⟨after.at_path.trans begun.at_path.symm, ?_,
      after.at_manifest.trans begun.at_manifest.symm, same⟩
    by_cases fits : s.Fits
    · rw [after.at_asidePath fits, absent fits]
    · exact Site.at_unfit fits after.sound

end LanguageHost.Install
