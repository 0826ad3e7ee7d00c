import LanguageHost.Proofs.Install.Failed
import LanguageHost.Proofs.Install.Workshop

/-! At most one call has the place of an installer, a call that is turned away leaves no trace, a
cancellation reaches the call that has the place and no other, and the place is free when no call has it. -/
namespace LanguageHost.Workshop
open Install (Visit Stage)

/-- A call has found the place free and has not ended. -/
def IsUnderway (s : Workshop) (k : Nat) : Prop := ∃ v, s.calls k = some v

/-- What is known of every state of a run: who has the place, and that a ticket is new. -/
structure Sound (s : Workshop) : Prop where
  sole : ∀ k, s.IsUnderway k ↔ s.slot = some k
  fresh : ∀ k, s.tickets ≤ k → s.calls k = none ∧ s.returned k = none ∧ k ∉ s.signalled

theorem sound_opened (servers : Path) (configs : ServerConfigs) (platform : Platform) (files : Files) :
    (opened servers configs platform files).Sound where
  sole k := by
    constructor
    · rintro ⟨v, there⟩
      cases there
    · intro taken
      cases taken
  fresh _ _ := ⟨rfl, rfl, by simp [opened]⟩

namespace Sound
variable {s : Workshop} {k : Nat} {v v' : Visit}

theorem held (h : s.Sound) (there : s.calls k = some v) : s.slot = some k := (h.sole k).mp ⟨v, there⟩

theorem lt_tickets (h : s.Sound) (there : s.calls k = some v) : k < s.tickets := by
  by_contra late
  cases there.symm.trans (h.fresh k (Nat.le_of_not_lt late)).1

theorem only (h : s.Sound) {j : Nat} {w : Visit} (there : s.calls k = some v) (other : s.calls j = some w) :
    j = k :=
  Option.some.inj ((h.held other).symm.trans (h.held there))

theorem unused (h : s.Sound) (free : s.slot = none) (k : Nat) : s.calls k = none := by
  cases there : s.calls k with
  | none => rfl
  | some v => cases free.symm.trans (h.held there)

/-- The call that has the place goes on, whatever it does to the installer and the files. -/
theorem put (h : s.Sound) (there : s.calls k = some v) (configs : ServerConfigs)
    (operation : Option Operation) (files : Files) (v' : Visit) :
    ({ s with configs := configs, operation := operation, files := files }.put k v').Sound where
  sole j := by
    refine Iff.trans ?_ (h.sole j)
    by_cases same : j = k
    · subst same
      simp [IsUnderway, Workshop.put, there]
    · simp [IsUnderway, Workshop.put, same]
  fresh j late := by
    have other : j ≠ k := (Nat.lt_of_lt_of_le (h.lt_tickets there) late).ne'
    obtain ⟨calls, returned, signalled⟩ := h.fresh j late
    exact ⟨by simp [Workshop.put, other, calls], returned, signalled⟩

/-- The call that has the place ends. -/
theorem release (h : s.Sound) (there : s.calls k = some v) (files : Files) :
    ({ s with files := files }.release k).Sound where
  sole j := by
    have gone : ¬ ({ s with files := files }.release k).IsUnderway j := by
      rintro ⟨w, other⟩
      by_cases same : j = k
      · subst same
        simp [Workshop.release] at other
      · have before : s.calls j = some w := by simpa [Workshop.release, same] using other
        exact same (h.only there before)
    exact ⟨fun underway => absurd underway gone, fun taken => nomatch taken⟩
  fresh j late := by
    have other : j ≠ k := (Nat.lt_of_lt_of_le (h.lt_tickets there) late).ne'
    obtain ⟨calls, returned, signalled⟩ := h.fresh j late
    exact ⟨by simp [Workshop.release, other, calls], returned, signalled⟩

theorem answers (h : s.Sound) (begun : k < s.tickets) (r : Except Error ServerBinary) :
    (s.answers k r).Sound where
  sole := h.sole
  fresh j late := by
    have other : j ≠ k := (Nat.lt_of_lt_of_le begun late).ne'
    obtain ⟨calls, returned, signalled⟩ := h.fresh j late
    exact ⟨calls, by simp [Workshop.answers, other, returned], signalled⟩

theorem cancel (h : s.Sound) : s.cancel.2.Sound where
  sole := h.sole
  fresh j late := by
    obtain ⟨calls, returned, signalled⟩ := h.fresh j late
    refine ⟨calls, returned, fun listed => ?_⟩
    rcases List.mem_append.mp listed with held | before
    · have taken : s.slot = some j := by simpa using held
      obtain ⟨v, there⟩ := (h.sole j).mpr taken
      cases calls.symm.trans there
    · exact signalled before

theorem begin (h : s.Sound) (e : RegistryEntry) : (s.begin e).Sound := by
  have later : ({ s with tickets := s.tickets + 1 } : Workshop).Sound :=
    ⟨h.sole, fun k late => h.fresh k (Nat.le_of_succ_le late)⟩
  unfold Workshop.begin
  dsimp only
  cases reserved : s.installer.reserve e with
  | error error => exact later.answers (Nat.lt_succ_self _) _
  | ok i =>
      have free : s.slot = none := by
        cases taken : s.slot with
        | none => rfl
        | some k => simp [Installer.reserve, installer, taken] at reserved
      have none_there := h.unused free
      constructor
      · intro j
        by_cases same : j = s.tickets
        · subst same
          simp [IsUnderway, Workshop.put]
        · simp [IsUnderway, Workshop.put, same, none_there, Ne.symm same]
      · intro j late
        have other : j ≠ s.tickets := (Nat.lt_of_lt_of_le (Nat.lt_succ_self _) late).ne'
        obtain ⟨calls, returned, signalled⟩ := h.fresh j (Nat.le_of_succ_le late)
        exact ⟨by simp [Workshop.put, other, calls], returned, signalled⟩

theorem steps (h : s.Sound) {s' : Workshop} (made : s.Steps s') : s'.Sound := by
  cases made with
  | stay => exact h
  | begin => exact h.begin _
  | leave there => exact (h.release there s.files).answers (h.lt_tickets there) _
  | cancel => exact h.cancel
  | abandon there => exact h.release there _
  | turn there | ask there | send there | answer there | take there => exact h.put there _ _ _ _

theorem run (h : s.Sound) (moves : List Move) : (s.run moves).Sound := by
  induction moves generalizing s with
  | nil => exact h
  | cons m moves ih => exact ih (h.steps (s.steps_next m))

theorem begin_of_held (h : s.Sound) (there : s.calls k = some v) (e : RegistryEntry) :
    s.begin e = ({ s with tickets := s.tickets + 1 } : Workshop).answers s.tickets
      (.error (.installing ((s.operation.map (·.package)).getD e.name))) := by
  simp [Workshop.begin, installer, Installer.reserve, h.held there]

/-- The install itself turns an entry away without a look at the machine. -/
theorem install_of_held (h : s.Sound) (there : s.calls k = some v) (e : RegistryEntry) :
    s.installer.install e = .done
      (.error (.installing ((s.operation.map (·.package)).getD e.name)), s.installer) := by
  have active : s.installer.active = true := by simp [installer, h.held there]
  simp only [Installer.install, Installer.reserve, active, if_true]
  rfl

end Sound

theorem begin_of_free {s : Workshop} (free : s.slot = none) (e : RegistryEntry) :
    s.begin e = ({ s with tickets := s.tickets + 1, slot := some s.tickets } : Workshop).put s.tickets
      (.start e s.installer s.files) := by
  simp [Workshop.begin, installer, Installer.reserve, free]

theorem cancel_of_free {s : Workshop} (free : s.slot = none) : s.cancel.2 = s := by
  obtain ⟨servers, configs, platform, operation, slot, rest⟩ := s
  cases free
  rfl

/-- However the steps of the calls on an installer and the cancellations follow each other, and however its
installs end: at most one call is under way, and it has the place. A call that finds another under way is
told so and changes nothing else. A cancellation finds an install just if a call is under way, and signals
the token of that call and no other. When no call is under way, the place is free, and the next call gets
it. -/
theorem one_install_at_a_time {servers : Path} {configs : ServerConfigs} {platform : Platform}
    {files : Files} {moves : List Move} {s : Workshop}
    (reached : (opened servers configs platform files).run moves = s) :
    (∀ j k, s.IsUnderway j → s.IsUnderway k → j = k) ∧
    (∀ k, s.slot = some k ↔ s.IsUnderway k) ∧
    (∀ k e, s.IsUnderway k → ∃ running, running = (s.operation.map (·.package)).getD e.name ∧
      s.installer.install e = .done (.error (.installing running), s.installer) ∧
      s.next (.begin e) =
        { s with
          tickets := s.tickets + 1
          returned := Function.update s.returned s.tickets (some (.error (.installing running))) }) ∧
    (s.cancel.1 = true ↔ s.slot ≠ none) ∧
    (∀ k, s.IsUnderway k → s.next .cancel = { s with signalled := k :: s.signalled }) ∧
    ((∀ k, ¬ s.IsUnderway k) → s.next .cancel = s ∧ s.slot = none ∧
      ∀ e, (s.next (.begin e)).slot = some s.tickets ∧ (s.next (.begin e)).IsUnderway s.tickets) := by
  have sound : s.Sound := reached ▸ (sound_opened servers configs platform files).run moves
  refine ⟨?_, fun k => (sound.sole k).symm, ?_, ?_, ?_, ?_⟩
  · rintro j k ⟨v, one⟩ ⟨w, other⟩
    exact sound.only other one
  · rintro k e ⟨v, there⟩
    exact ⟨_, rfl, sound.install_of_held there e, sound.begin_of_held there e⟩
  · exact Option.isSome_iff_ne_none
  · rintro k ⟨v, there⟩
    simp [next, cancel, sound.held there]
  · intro idle
    have free : s.slot = none := by
      cases taken : s.slot with
      | none => rfl
      | some k => exact absurd ((sound.sole k).mpr taken) (idle k)
    refine ⟨cancel_of_free free, free, fun e => ?_⟩
    have begun : s.next (.begin e) = _ := begin_of_free free e
    rw [begun]
    exact ⟨rfl, .start e s.installer s.files, by simp [put]⟩

namespace Sample

/-- An installer that nobody has called. -/
def idle : Workshop :=
  let i := Install.Sample.installer
  opened i.servers i.configs i.platform Install.Sample.files

/-- The installer with an install under way. -/
def busy : Workshop := idle.run [.begin Install.Sample.entry]

end Sample

theorem second_install_is_turned_away : Sample.busy.slot = some 0 ∧
    (Sample.busy.next (.begin Install.Sample.entry)).returned 1 = some (.error (.installing "n")) ∧
    (Sample.busy.next .cancel).signalled = [0] := by
  obtain ⟨-, holds, rejects, -, signals, -⟩ := one_install_at_a_time (s := Sample.busy) rfl
  have underway : Sample.busy.IsUnderway 0 := ⟨_, rfl⟩
  refine ⟨(holds 0).mpr underway, ?_, ?_⟩
  · obtain ⟨running, named, -, rejected⟩ := rejects 0 Install.Sample.entry underway
    rw [rejected, named]
    rfl
  · rw [signals 0 underway]
    rfl

end LanguageHost.Workshop
