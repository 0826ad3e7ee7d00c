import LanguageHost.Proofs.Install.Moves

/-! A whole install. While its attempt runs, what was in place before is kept aside; a failure removes
what the attempt has made and brings that back. -/
namespace LanguageHost.Install
open Files
open Program (Runs)

namespace Site
variable {servers : Path} {name : String} {manifest : Path} {s : Site servers name manifest}
  {own : List String} {kept before x y : Option Files} {t : Files}

theorem keeps_perform {m : InstallMethod} {b : Backend} (stays : s.Stays own kept before m b)
    (e : RegistryEntry) (version : String) (platform : Platform) :
    Installing.Keeps (s.Fair own) (s.Underway own kept before) (perform b e m version platform) := by
  obtain ⟨ready, weaken, prepare, install, _⟩ := stays
  refine Installing.Keeps.bind (.update _) fun _ => ?_
  refine Installing.Holds.bind prepare (fun _ => ?_) fun _ h => h
  refine Installing.Holds.bind (R := fun _ => ready) (.update (fun _ h => h) weaken) (fun _ => ?_)
    fun _ h => h
  refine Installing.Holds.bind install (fun _ => ?_) fun _ h => h
  refine Installing.Keeps.bind (.update _) fun _ => ?_
  cases platform.expand e.executables.primary version with
  | error reason => exact .fail _
  | ok primary =>
      refine .bind (.exists? _) fun there => ?_
      cases there with
      | true => exact .pure _
      | false => exact .fail _

/-- What an install that is abandoned leaves: where nothing is in place, `v`, which it found, is still
aside, or nothing at all has been installed whole. -/
def Left (s : Site servers name manifest) (v : Option Files) (Whole : Option Files → Prop)
    (t : Files) : Prop :=
  ∃ x y now, s.Resting x y now t ∧ Solid x ∧ (s.Fits → Solid y) ∧
    (x = none → y = v ∨ y = none ∧ Whole none)

/-- A new install is in place, and the one before still aside. -/
def Arrived (s : Site servers name manifest) (kept : Option Files) (Whole : Option Files → Prop)
    (t : Files) : Prop :=
  ∃ x now, s.Resting x kept now t ∧ Solid x ∧ Whole x

variable {Whole : Option Files → Prop}

theorem Recoverable.left {v : Option Files} (h : s.Recoverable v before t) : s.Left v Whole t := by
  obtain ⟨x, y, resting, hx, hy, found⟩ := h
  exact ⟨x, y, before, resting, hx, fun _ => hy, fun gone => .inl (found gone)⟩

theorem Underway.left (h : s.Underway own kept before t) (solid : s.Fits → Solid kept) :
    s.Left kept Whole t :=
  ⟨_, kept, before, h.resting, h.calm.place, solid, fun _ => .inl rfl⟩

theorem Arrived.left (h : s.Arrived kept Whole t) (solid : s.Fits → Solid kept) :
    s.Left kept Whole t := by
  obtain ⟨x, now, resting, hx, _⟩ := h
  exact ⟨x, kept, now, resting, hx, solid, fun _ => .inl rfl⟩

/-! The attempt. -/

section attempt
variable {b : Backend} {e : RegistryEntry} {p : Plan} {platform : Platform} {configs : ServerConfigs}
  {P : Files → Prop}

/-- Registering what has been installed whole. -/
theorem holds_registered (solid : s.Fits → Solid kept) (registry : configs.path = manifest)
    (m : InstallMethod) (version : String) (binary : ServerBinary) :
    Installing.Holds (s.Fair own)
      (fun t => s.Underway own kept before t ∧ Whole (t.get? s.place))
      (do
        let configs ← Installing.ofExcept
          (← Installing.lift (register configs e m version binary).run)
        pure (binary, configs))
      (fun _ => s.Arrived kept Whole) (s.Underway own kept before) (s.Left kept Whole) := by
  refine .of_each fun t start => ?_
  obtain ⟨underway, whole⟩ := start
  have solid_place : Solid (t.get? s.place) := underway.calm.place
  have arrived : ∀ t', s.Registered (t.get? s.place) kept t' → s.Arrived kept Whole t' :=
    fun t' h => h.elim fun now resting => ⟨_, now, resting, solid_place, whole⟩
  have refused : ∀ t', s.Resting (t.get? s.place) kept before t' → s.Underway own kept before t' :=
    fun t' h => ⟨h.sound, underway.calm.of_place_eq h.place, h.aside, h.manifest⟩
  have left : ∀ t', s.Registered (t.get? s.place) kept t' → s.Left kept Whole t' :=
    fun t' h => (arrived t' h).left solid
  have begun : ∀ t', t' = t → s.Resting (t.get? s.place) kept before t' := by
    rintro _ rfl
    exact underway.resting
  have registered : Program.Fallible.Holds (s.Fair own) (· = t) (register configs e m version binary)
      (fun _ => s.Registered (t.get? s.place) kept) (s.Resting (t.get? s.place) kept before)
      (s.Left kept Whole) :=
    Program.Holds.mono (holds_register registry e m version binary) begun (fun _ _ h => h) left
  refine Installing.Holds.bind (.lift registered ?_) (fun r => ?_) fun t' h => h.left solid
  · rintro (error | configs) t' h
    · exact left t' h.registered
    · exact left t' h
  · cases r with
    | error error => exact .fail refused fun t' h => left t' h.registered
    | ok configs => exact .pure arrived left

theorem holds_attempt (stays : s.Stays own kept before p.method p.backend) (solid : s.Fits → Solid kept)
    (registry : configs.path = manifest) (start : ∀ t, P t → s.Underway own kept before t)
    (whole : ∀ t t' o o' binary, P t → Runs (s.Fair own) t
      ((perform p.backend e p.method p.source.version platform).run.run o) (some (.ok binary, o')) t' →
      s.Sound t' → Whole (t'.get? s.place)) :
    Installing.Holds (s.Fair own) P (attempt configs e p platform) (fun _ => s.Arrived kept Whole)
      (s.Underway own kept before) (s.Left kept Whole) := by
  have failed : ∀ t, s.Underway own kept before t → s.Left kept Whole t := fun _ h => h.left solid
  have performed : Installing.Holds (s.Fair own) P
      (perform p.backend e p.method p.source.version platform)
      (fun _ t => s.Underway own kept before t ∧ Whole (t.get? s.place)) (s.Underway own kept before)
      (s.Left kept Whole) := by
    have kept := (keeps_perform stays e p.source.version platform).mono start (fun _ _ h => h)
      (fun _ h => h) failed
    refine kept.traced.mono (fun _ h => h) (fun binary t h => ?_) (fun _ h => h) fun _ h => h
    obtain ⟨underway, t₀, o, o', from_start, run⟩ := h
    exact ⟨underway, whole t₀ t o o' binary from_start run underway.sound⟩
  refine performed.bind (fun binary => ?_) failed
  have asked : Program.Holds (s.Fair own)
      (fun t => s.Underway own kept before t ∧ Whole (t.get? s.place)) (Program.ask .cancelled)
      (fun _ t => s.Underway own kept before t ∧ Whole (t.get? s.place)) (s.Left kept Whole) :=
    .ask (fun t h => failed t h.1) fun h start _ => ⟨start, failed _ start.1⟩
  refine Installing.Holds.bind (.lift asked fun _ t h => failed t h.1) (fun cancelled => ?_) failed
  cases cancelled with
  | true => exact .fail (fun _ h => h.1) fun t h => failed t h.1
  | false => exact holds_registered solid registry _ _ _

end attempt

/-! The rollback. -/

/-- What it ends with: the install kept aside in place again, if there is one, and else nothing. -/
def Restored (s : Site servers name manifest) (kept before : Option Files) (aside : Option Path)
    (t : Files) : Prop :=
  match aside with
  | none => s.Resting none kept before t
  | some _ => s.Resting kept none before t

/-- The path that a rollback is given is that of the install kept aside. -/
def KeptAt (s : Site servers name manifest) (kept : Option Files) (aside : Option Path) : Prop :=
  aside = none ∨ aside = some s.asidePath ∧ s.Fits ∧ ∃ v, kept = some v

theorem left_aside (h : s.Resting none kept before t) (solid : s.Fits → Solid kept) :
    s.Left kept Whole t :=
  ⟨none, kept, before, h, solid_none, solid, fun _ => .inl rfl⟩

theorem left_back (h : s.Resting kept none before t) (solid : Solid kept) : s.Left kept Whole t :=
  ⟨kept, none, before, h, solid, fun _ => solid_none, fun gone => .inl gone.symm⟩

theorem Restored.left {aside : Option Path} (h : s.Restored kept before aside t)
    (solid : s.Fits → Solid kept) (there : s.KeptAt kept aside) : s.Left kept Whole t := by
  cases aside with
  | none => exact left_aside h solid
  | some p =>
      rcases there with none | ⟨_, fits, v, rfl⟩
      · cases none
      · exact left_back h (solid fits)

theorem holds_cleaned {m : InstallMethod} {b : Backend} (stays : s.Stays own kept before m b)
    (solid : s.Fits → Solid kept) :
    Installing.Holds (s.Fair own) (s.Underway own kept before) (tryCatch b.cleanup fun _ => pure ())
      (fun _ => s.Underway own kept before) (fun _ => False) (s.Left kept Whole) := by
  obtain ⟨_, _, _, _, cleanup⟩ := stays
  have left : ∀ t, s.Underway own kept before t → s.Left kept Whole t := fun _ h => h.left solid
  refine .tryCatch (F := s.Underway own kept before) ?_ (fun _ => ?_) fun _ => left
  · exact cleanup.mono (fun _ h => h) (fun _ _ h => h) (fun _ h => h) left
  · exact .pure (fun _ h => h) left

theorem holds_emptied (solid : s.Fits → Solid kept) :
    Program.Holds (s.Fair own) (s.Underway own kept before) (removePath s.path)
      (fun r t => r = .ok () ∧ s.Resting none kept before t) (s.Left kept Whole) := by
  have removed : Program.Holds (s.Fair own) (s.Underway own kept before) (removePath s.path)
      (fun r t => r = .ok () ∧ s.Resting none kept before t)
      fun t => s.Underway own kept before t ∨ s.Resting none kept before t := by
    refine holds_removePath place_slot path_ne_empty (fun t h => ⟨h.sound, h.calm.place⟩) (.inl rfl)
      ?_ ?_
    · exact fun t h absent => ⟨h.sound, absent, h.aside, h.manifest⟩
    · exact fun t h _ => h.resting.removed_place
  refine removed.mono (fun _ h => h) (fun _ _ h => h) fun t h => ?_
  exact h.elim (fun h => h.left solid) fun h => left_aside h solid

theorem holds_brought_back {v : Files} (fits : s.Fits) (solid : Solid (some v)) :
    Program.Holds (s.Fair own) (s.Resting none (some v) before)
      (Program.ask (.rename s.asidePath s.path)) (fun _ => s.Resting (some v) none before)
      (s.Left (some v) Whole) := by
  have renamed : Program.Holds (s.Fair own) (s.Resting none (some v) before)
      (Program.ask (.rename s.asidePath s.path))
      (fun r t => r = .ok () ∧ s.Resting (some v) none before t) _ :=
    holds_rename fits.slot place_slot aside_ne_empty path_ne_empty (asideName_ne name)
      (.inr ⟨rfl, rfl⟩) fun t h => ⟨h.sound, v, h.aside, h.place, h.moved_back⟩
  refine renamed.mono (fun _ h => h) (fun _ _ h => h.2) fun t h => ?_
  rcases h with first | last
  · exact left_aside first fun _ => solid
  · exact left_back last solid

theorem holds_rollback {m : InstallMethod} {b : Backend} {aside : Option Path}
    (stays : s.Stays own kept before m b) (solid : s.Fits → Solid kept) (there : s.KeptAt kept aside) :
    Installing.Holds (s.Fair own) (s.Underway own kept before) (rollback b s.path aside)
      (fun _ => s.Restored kept before aside) (fun _ => False) (s.Left kept Whole) := by
  have never : ∀ t, False → s.Left kept Whole t := fun _ h => h.elim
  refine (holds_cleaned stays solid).bind (fun _ => ?_) never
  refine Installing.Holds.bind (.lift (holds_emptied solid) fun _ t h => left_aside h.2 solid)
    (fun r => ?_) never
  refine .of_fact (fun t h => h.1) fun done => ?_
  subst done
  cases aside with
  | none => exact .pure (fun t h => h.2) fun t h => left_aside h.2 solid
  | some p =>
      rcases there with none | ⟨same, fits, v, rfl⟩
      · cases none
      · cases same
        have back : ∀ t, s.Resting (some v) none before t → s.Left (some v) Whole t :=
          fun t h => left_back h (solid fits)
        refine .map (.lift ((holds_brought_back fits (solid fits)).mono (fun t h => h.2)
          (fun _ _ h => h) fun _ h => h) fun _ => back) (fun _ => back) never

/-! From the set-aside to the end. -/

section run
variable {e : RegistryEntry} {p : Plan} {platform : Platform} {configs : ServerConfigs}
  {P : Files → Prop} {aside : Option Path}

/-- The copy aside goes once a new install is in place. -/
theorem holds_discarded (fits : s.Fits) (solid : s.Fits → Solid kept) :
    Program.Holds (s.Fair own) (s.Arrived kept Whole) (removePath s.asidePath)
      (fun _ => s.Left kept Whole) (s.Left kept Whole) := by
  have last : ∀ t, s.Arrived none Whole t → s.Left kept Whole t := by
    rintro t ⟨x, now, resting, hx, whole⟩
    exact ⟨x, none, now, resting, hx, fun _ => solid_none, fun gone => .inr ⟨rfl, gone ▸ whole⟩⟩
  have removed : Program.Holds (s.Fair own) (s.Arrived kept Whole) (removePath s.asidePath)
      (fun r t => r = .ok () ∧ s.Arrived none Whole t)
      fun t => s.Arrived kept Whole t ∨ s.Arrived none Whole t := by
    refine holds_removePath fits.slot aside_ne_empty ?_ (.inr rfl) ?_ ?_
    · rintro t ⟨x, now, resting, _, _⟩
      refine ⟨resting.sound, ?_⟩
      exact (resting.aside.symm ▸ solid fits : Solid (t.get? s.aside))
    · rintro t ⟨x, now, resting, hx, whole⟩ absent
      exact ⟨x, now, ⟨resting.sound, resting.place, absent, resting.manifest⟩, hx, whole⟩
    · rintro t ⟨x, now, resting, hx, whole⟩ _
      exact ⟨x, now, resting.removed_aside, hx, whole⟩
  refine removed.mono (fun _ h => h) (fun _ t h => last t h.2) fun t h => ?_
  exact h.elim (fun arrived => arrived.left solid) (last t)

/-- How an attempt has ended. -/
def Ended (s : Site servers name manifest) (own : List String) (kept before : Option Files)
    (Whole : Option Files → Prop) (result : Except Error α) : Files → Prop :=
  Program.Either (fun _ => s.Arrived kept Whole) (s.Underway own kept before) result

theorem Ended.left {result : Except Error α} (h : s.Ended own kept before Whole result t)
    (solid : s.Fits → Solid kept) : s.Left kept Whole t := by
  cases result with
  | ok done => exact Arrived.left h solid
  | error error => exact Underway.left h solid

/-- The end of an attempt: a new install makes the copy aside needless, a failure is rolled back. -/
theorem holds_settled (stays : s.Stays own kept before p.method p.backend) (solid : s.Fits → Solid kept)
    (there : s.KeptAt kept aside) (result : Except Error (ServerBinary × ServerConfigs)) :
    Installing.Holds (s.Fair own) (s.Ended own kept before Whole result)
      (match result, aside with
        | .ok done, some previous => do
          discard (Installing.lift (removePath previous))
          pure done
        | .ok done, none => pure done
        | .error error, _ => do
          rollback p.backend s.path aside
          Installing.fail error)
      (fun _ => s.Left kept Whole) (s.Restored kept before aside) (s.Left kept Whole) := by
  have arrived : ∀ t, s.Arrived kept Whole t → s.Left kept Whole t := fun _ h => h.left solid
  have restored : ∀ t, s.Restored kept before aside t → s.Left kept Whole t :=
    fun _ h => h.left solid there
  cases result with
  | error error =>
      refine Installing.Holds.bind ((holds_rollback stays solid there).mono (fun _ h => h)
        (fun _ _ h => h) (fun _ h => h.elim) fun _ h => h) (fun _ => ?_) restored
      exact .fail (fun _ h => h) restored
  | ok done =>
      cases aside with
      | none => exact .pure arrived arrived
      | some previous =>
          rcases there with none | ⟨same, fits, v, rfl⟩
          · cases none
          · cases same
            have same : ∀ t, s.Left (some v) Whole t → s.Left (some v) Whole t := fun _ h => h
            refine Installing.Holds.bind (R := fun _ => s.Left (some v) Whole) ?_ (fun _ => ?_)
              restored
            · exact .map (.lift (holds_discarded fits solid) fun _ => same) (fun _ => same) restored
            · exact .pure same same

theorem holds_undertaken (stays : s.Stays own kept before p.method p.backend)
    (solid : s.Fits → Solid kept) (there : s.KeptAt kept aside) (registry : configs.path = manifest)
    (start : ∀ t, P t → s.Underway own kept before t)
    (whole : ∀ t t' o o' binary, P t → Runs (s.Fair own) t
      ((perform p.backend e p.method p.source.version platform).run.run o) (some (.ok binary, o')) t' →
      s.Sound t' → Whole (t'.get? s.place)) :
    Installing.Holds (s.Fair own) P
      (do
        let result ← tryCatch (Except.ok <$> attempt configs e p platform)
          fun error => pure (.error error)
        match result, aside with
        | .ok done, some previous =>
          discard (Installing.lift (removePath previous))
          pure done
        | .ok done, none => pure done
        | .error error, _ =>
          rollback p.backend s.path aside
          Installing.fail error)
      (fun _ => s.Left kept Whole) (s.Restored kept before aside) (s.Left kept Whole) := by
  have ended : ∀ (r : Except Error (ServerBinary × ServerConfigs)) t,
      s.Ended own kept before Whole r t → s.Left kept Whole t := fun _ _ h => h.left solid
  have failed : ∀ t, s.Underway own kept before t → s.Left kept Whole t := fun _ h => h.left solid
  have tried : Installing.Holds (s.Fair own) P
      (tryCatch (Except.ok <$> attempt configs e p platform) fun error => pure (.error error))
      (s.Ended own kept before Whole) (s.Restored kept before aside) (s.Left kept Whole) := by
    refine .tryCatch (F := s.Underway own kept before) ?_ (fun error => .pure (fun _ h => h) failed)
      ended
    exact .map (holds_attempt stays solid registry start whole) ended failed
  exact tried.bind (holds_settled stays solid there) fun _ h => h.left solid there

end run

end Site

/-! The whole of it. -/

theorem plan_cases {servers : Path} {e : RegistryEntry} {platform : Platform} {p : Plan}
    (planned : plan servers e platform = .ok p) : p.method = e.method platform ∧
      Backend.ofMethod p.method (place servers e) = .ok p.backend := by
  unfold plan at planned
  dsimp only at planned
  split at planned
  · cases planned
  · split at planned
    · next b chosen =>
        cases planned
        exact ⟨rfl, chosen⟩
    · cases planned

namespace Site
variable {servers : Path} {e : RegistryEntry} {manifest : Path} {s : Site servers e.name manifest}
  {before x y : Option Files} {start : Files} {platform : Platform} {configs : ServerConfigs}

/-- What may be in place once an install from these files has come through its verification. -/
def Verified (s : Site servers e.name manifest) (platform : Platform) (start : Files)
    (x : Option Files) : Prop :=
  ∃ p had binary t t' o₁ o₂ o₃ o₄, plan servers e platform = .ok p ∧
    Runs (s.Fair (ownFiles p.method)) start ((setAside s.path s.asidePath).run.run o₁)
      (some (.ok had, o₂)) t ∧
    Runs (s.Fair (ownFiles p.method)) t
      ((perform p.backend e p.method p.source.version platform).run.run o₃) (some (.ok binary, o₄)) t' ∧
    x = t'.at? (s.cwd / s.path.text)

section run
variable {p : Plan} (planned : plan servers e platform = .ok p)
include planned

theorem verified_of_runs {had : Bool} {binary : ServerBinary} {t t' : Files} {o₁ o₂ o₃ o₄ : Operation}
    (aside : Runs (s.Fair (ownFiles p.method)) start ((setAside s.path s.asidePath).run.run o₁)
      (some (.ok had, o₂)) t)
    (performed : Runs (s.Fair (ownFiles p.method)) t
      ((perform p.backend e p.method p.source.version platform).run.run o₃) (some (.ok binary, o₄)) t')
    (sound : s.Sound t') : s.Verified platform start (t'.get? s.place) := by
  refine ⟨p, had, binary, t, t', o₁, o₂, o₃, o₄, planned, aside, performed, ?_⟩
  rw [place_slot.at?_eq sound.extends_ground sound.base]
  rfl

/-- After the set-aside an install ends well or restores what it has set aside. -/
theorem holds_run {kept : Option Files} {had : Bool} {E : Files → Prop} (solid : s.Fits → Solid kept)
    (registry : configs.path = manifest)
    (there : s.KeptAt kept (if had then some s.asidePath else none))
    (moved : Installing.Holds (s.Fair (ownFiles p.method)) (· = start)
      (setAside s.path s.asidePath) (fun r t => s.Resting none kept before t ∧ r = had) E
      (s.Left kept (s.Verified platform start)))
    (restored : ∀ t, s.Restored kept before (if had then some s.asidePath else none) t → E t)
    (failed : ∀ t, E t → s.Left kept (s.Verified platform start) t) :
    Installing.Holds (s.Fair (ownFiles p.method)) (· = start) (run servers configs e platform)
      (fun _ => s.Left kept (s.Verified platform start)) E
      (s.Left kept (s.Verified platform start)) := by
  have stays : s.Stays (ownFiles p.method) kept before p.method p.backend :=
    stays_of_method (plan_cases planned).2
  unfold run
  rw [planned]
  refine Installing.Holds.bind moved.traced (fun r => ?_) failed
  refine .of_fact (fun t h => h.1.2) fun same => ?_
  subst same
  refine (holds_undertaken stays solid there registry ?_ ?_).mono (fun _ h => h) (fun _ _ h => h)
    restored fun _ h => h
  · exact fun t h => h.1.1.underway
  · rintro t t' o o' binary ⟨_, t₀, o₁, o₂, rfl, aside⟩ performed sound
    exact verified_of_runs planned aside performed sound

variable (hx : Solid x) (hy : s.Fits → Solid y) (registry : configs.path = manifest)
  (begun : s.Resting x y before start)
include hx hy registry begun

theorem holds_run_fits (fits : s.Fits) :
    Installing.Holds (s.Fair (ownFiles p.method)) (· = start) (run servers configs e platform)
      (fun _ => s.Left (x.or y) (s.Verified platform start)) (s.Resting (x.or y) none before)
      (s.Left (x.or y) (s.Verified platform start)) := by
  have solid := hx.or (hy fits)
  have moved : Installing.Holds (s.Fair (ownFiles p.method)) (· = start)
      (setAside s.path s.asidePath)
      (fun r t => s.Resting none (x.or y) before t ∧ r = (x.or y).isSome)
      (s.Resting (x.or y) none before) (s.Left (x.or y) (s.Verified platform start)) := by
    refine (holds_setAside hx (hy fits) fits).mono ?_ (fun _ _ h => h) (fun _ h => h.elim)
      fun _ h => h.left
    rintro _ rfl
    exact begun
  have failed : ∀ t, s.Resting (x.or y) none before t →
      s.Left (x.or y) (s.Verified platform start) t := fun t h => left_back h solid
  refine holds_run planned (fun _ => solid) registry ?_ moved ?_ failed
  · cases kept : x.or y with
    | none => exact .inl rfl
    | some v => exact .inr ⟨rfl, fits, v, rfl⟩
  · intro t h
    cases kept : x.or y with
    | none => simpa [kept, Restored] using h
    | some v => simpa [kept, Restored] using h

omit planned hy registry in
theorem holds_setAside_begun (unfit : ¬ s.Fits) {own : List String} :
    Installing.Holds (s.Fair own) (· = start) (setAside s.path s.asidePath)
      (fun r t => s.Resting x y before t ∧ x = none ∧ r = false) (s.Resting x y before)
      (s.Resting x y before) := by
  refine (holds_setAside_unfit hx unfit).mono ?_ (fun _ _ h => h) (fun _ h => h) fun _ h => h
  rintro _ rfl
  exact begun

/-- Where the copy aside cannot be named, an install can only go where nothing is. -/
theorem holds_run_unfit (unfit : ¬ s.Fits) :
    Installing.Holds (s.Fair (ownFiles p.method)) (· = start) (run servers configs e platform)
      (fun _ _ => x = none) (s.Resting x y before)
      (fun t => x = none ∨ s.Resting x y before t) := by
  have moved : Installing.Holds (s.Fair (ownFiles p.method)) (· = start) _ _ _ _ :=
    holds_setAside_begun hx begun unfit
  cases x with
  | none =>
      have none_aside : Installing.Holds (s.Fair (ownFiles p.method)) (· = start)
          (setAside s.path s.asidePath) (fun r t => s.Resting none y before t ∧ r = false) _
          (s.Left y (s.Verified platform start)) :=
        moved.mono (fun _ h => h) (fun _ _ h => ⟨h.1, h.2.2⟩) (fun _ h => h)
          fun t h => left_aside h hy
      have whole := holds_run planned hy registry (.inl rfl) none_aside (fun _ h => h)
        fun t h => left_aside h hy
      exact whole.mono (fun _ h => h) (fun _ _ _ => rfl) (fun _ h => h) fun _ _ => .inl rfl
  | some v =>
      unfold run
      rw [planned]
      refine Installing.Holds.bind (R := fun _ _ => False) ?_ (fun _ => .never) fun _ h => .inr h
      exact moved.mono (fun _ h => h) (fun _ _ h => by cases h.2.1) (fun _ h => h) fun _ h => .inr h

end run

end Site

end LanguageHost.Install
