import LanguageHost.Proofs.Fleet.Crashes

/-!
Starts that fail. Whatever a start has made by then it has undone: its language has no entry, and all the
servers that were launched for it have ended. A start that is refused because a server is there has touched
nothing.
-/
namespace LanguageHost

namespace Slot.Move

variable {s s' : Slot} {k i : Nat} {g? g?' : Option Grip} {deed : Deed}

/-- A server that is the active one or in the hands of a call was so before, or was launched just now. -/
theorem held (h : s.Move k g? s' g?' deed)
    (there : s'.active = some i ∨ ∃ g, g?' = some g ∧ g.link? = some i) :
    (s.active = some i ∨ ∃ g, g? = some g ∧ g.link? = some i) ∨ deed = .launches i := by
  rcases there with active | ⟨g, rfl, carried⟩
  · rcases h.active active with before | presenting
    · exact .inl (.inl before)
    · exact .inl (.inr ⟨_, presenting, rfl⟩)
  · cases h with
    | stays => exact .inl (.inr ⟨g, rfl, carried⟩)
    | takes j first active | removes j active =>
      cases carried
      exact .inl (.inl active)
    | hides j =>
      cases carried
      exact .inl (.inr ⟨_, rfl, rfl⟩)
    | publishes j config =>
      cases carried
      exact .inl (.inr ⟨_, rfl, rfl⟩)
    | launches j =>
      cases carried
      exact .inr rfl
    | joins | enters | withdraws | finds | clears => cases carried

end Slot.Move

namespace Fleet

variable {f f' f'' : Fleet} {k : Nat} {r : StartRequest} {language : String}

/-- Nothing about a document is passed on where no server is published. -/
theorem onDocument_unpublished (h : (f.slot language).running = none)
    (change : Client → Except Error (DocumentChange × Client)) :
    f.onDocument language change = (.error (.notRunning language), f) := by
  have told : f.running? language = none := by
    unfold slot at h
    unfold running?
    cases found : f.slots.get? language with
    | none => rfl
    | some s =>
      rw [found] at h
      rw [Option.bind_some, show s.running = none from h]
      rfl
  unfold onDocument
  rw [told]

/-- The links are as they were, with all that they hold, and so are the entries of all slots; only who waits
for a slot may have changed. -/
structure Untouched (f f' : Fleet) : Prop where
  links : f'.links = f.links
  events : f'.events = f.events
  active : ∀ language, (f'.slot language).active = (f.slot language).active
  running : ∀ language, (f'.slot language).running = (f.slot language).running

theorem Untouched.refl : f.Untouched f := ⟨rfl, rfl, fun _ => rfl, fun _ => rfl⟩

theorem Untouched.of_change {change : Slot → Slot} (active : ∀ s, (change s).active = s.active)
    (running : ∀ s, (change s).running = s.running) : f.Untouched (f.changeSlot language change) := by
  constructor
  · rfl
  · rfl
  · intro other
    rw [slot_changeSlot]
    split
    · next same => rw [active, same]
    · rfl
  · intro other
    rw [slot_changeSlot]
    split
    · next same => rw [running, same]
    · rfl

theorem Untouched.join : f.Untouched (f.join language k) := by
  unfold Fleet.join
  exact .of_change (fun _ => rfl) fun _ => rfl

theorem Untouched.leave : f.Untouched (f.leave language k) := by
  unfold Fleet.leave
  exact .of_change (fun _ => rfl) fun _ => rfl

/-- A start that has not had the slot yet. -/
def StartStage.IsEarly : StartStage → Prop
  | .fresh | .found | .queued => True
  | _ => False

/-- A start that goes on waiting for the slot, or gives up before it has it, touches nothing. -/
theorem untouched_start {s : StartStage} (early : s.IsEarly)
    (rest : ∀ s', (f.start k r s).2.rest? s = some s' → s'.IsEarly) : f.Untouched (f.start k r s).1 := by
  cases s with
  | fresh => exact .of_change (fun _ => rfl) fun _ => rfl
  | found => exact .join
  | queued =>
    simp only [start] at rest ⊢
    split
    · exact .refl
    · next held =>
      rw [if_neg held] at rest
      split
      · exact .refl
      · exact .leave
      · next there policy =>
        simp only [there, policy] at rest
        exact (rest _ rfl).elim
  | _ => exact early.elim

/-- A start that has had the slot never waits for it again. -/
theorem late_start {s s' : StartStage} (late : ¬ s.IsEarly) (rest : (f.start k r s).2.rest? s = some s') :
    ¬ s'.IsEarly := by
  intro early
  cases s with
  | fresh | found | queued => exact late trivial
  | unpublished | launching | greeted | replacing | greeting =>
    simp only [start] at rest
    split at rest
    all_goals cases rest <;> exact early
  | failed | published => cases rest
  | listening =>
    cases rest
    exact early

/-- Where a start fails once it has had the slot: there is no server, or it has the only one in its hands. -/
theorem grip_of_failed {s : StartStage} {e : Error} (failed : (f.start k r s).2 = .done (.error e))
    (late : ¬ s.IsEarly) : s.grip = some .bare ∨ ∃ i, s.grip = some (.carrying i) := by
  cases s with
  | fresh | found | queued => exact absurd trivial late
  | unpublished =>
    simp only [start] at failed
    split at failed
    all_goals cases failed
  | launching => exact .inl rfl
  | replacing i | greeting i | failed i | greeted i | listening i => exact .inr ⟨i, rfl⟩
  | published i => cases failed

/-- Where a start fails before it has had the slot: at a server that is there and is not to be replaced. -/
theorem refused_early {s : StartStage} {e : Error} (failed : (f.start k r s).2 = .done (.error e))
    (early : s.IsEarly) : s = .queued ∧ e = .alreadyRunning r.language ∧ r.policy = .reject ∧
      (f.slot r.language).queue.head? = some k ∧ ∃ i, (f.slot r.language).active = some i := by
  cases s with
  | fresh | found => cases failed
  | queued =>
    simp only [start] at failed
    split at failed
    · cases failed
    · next held =>
      have first : (f.slot r.language).queue.head? = some k := by simpa [holds] using held
      split at failed
      · cases failed
      · next i active policy =>
        cases failed
        exact ⟨rfl, rfl, policy, first, i, active⟩
      · cases failed
  | _ => exact early.elim

end Fleet

/-- A start that has not had the slot of its language yet. -/
def Task.IsEarly : Task → Prop
  | .start _ s => s.IsEarly
  | _ => False

theorem Task.late_step {t t' : Task} {k : Nat} {f : Fleet} (late : ¬ t.IsEarly)
    (rest : (t.step k f).2.rest? t = some t') : ¬ t'.IsEarly := by
  cases t with
  | call i c =>
    simp only [step] at rest
    cases there : f.links[i]? with
    | none =>
      simp only [Fleet.onLink, there] at rest
      cases rest
    | some l =>
      rw [Fleet.onLink_some there, Turn.rest?_lift] at rest
      obtain ⟨c', -, rfl⟩ := Option.map_eq_some_iff.mp rest
      exact id
  | start r s =>
    simp only [step, Turn.rest?_lift] at rest
    obtain ⟨s', stage, rfl⟩ := Option.map_eq_some_iff.mp rest
    exact Fleet.late_start late stage
  | stop language s =>
    simp only [step, Turn.rest?_lift] at rest
    obtain ⟨s', -, rfl⟩ := Option.map_eq_some_iff.mp rest
    exact id
  | stopAll s =>
    simp only [step, Turn.rest?_lift] at rest
    obtain ⟨s', -, rfl⟩ := Option.map_eq_some_iff.mp rest
    exact id

namespace Traffic

variable {s : Traffic} {k n : Nat} {t : Task} {r : StartRequest} {language : String}

/-! Refused starts. -/

/-- A call that has begun, and is not a start that still waits for the slot. -/
def IsLate (s : Traffic) (k : Nat) : Prop := k < s.tickets ∧ ∀ t, s.calls k = some t → ¬ t.IsEarly

namespace IsLate

theorem next (h : s.IsLate k) (move : Move) : (s.next move).IsLate k := by
  obtain ⟨begun, late⟩ := h
  cases move with
  | begin t =>
    simp only [Traffic.next]
    split
    · refine ⟨Nat.lt_succ_of_lt begun, fun t' there => late t' ?_⟩
      exact (Function.update_of_ne (Nat.ne_of_lt begun) ..).symm.trans there
    · exact ⟨begun, late⟩
  | turn j =>
    simp only [Traffic.next]
    split
    · exact ⟨begun, late⟩
    · next t there =>
      refine ⟨begun, fun t' after => ?_⟩
      by_cases same : j = k
      · subst same
        rw [calls_turned_self] at after
        exact Task.late_step (late t there) after
      · exact late t' ((s.calls_turned_of_ne (Ne.symm same) t).symm.trans after)
  | note j languages =>
    simp only [Traffic.next]
    split
    · split
      · refine ⟨begun, fun t' after => ?_⟩
        by_cases same : j = k
        · subst same
          cases (Function.update_self ..).symm.trans after
          exact id
        · exact late t' ((Function.update_of_ne (Ne.symm same) ..).symm.trans after)
      · exact ⟨begun, late⟩
    · exact ⟨begun, late⟩
  | act i a => exact ⟨begun, late⟩
  | pass time => exact ⟨begun, late⟩
  | configure config launcher => exact ⟨begun, late⟩

theorem run (h : s.IsLate k) (moves : List Move) : (s.run moves).IsLate k := by
  induction moves generalizing s with
  | nil => exact h
  | cons move moves ih => exact ih (h.next move)

end IsLate

theorem Sound.begun_of_call (h : s.Sound) (there : s.calls k = some t) : k < s.tickets := by
  by_contra unused
  rw [h.begun k (Nat.not_lt.mp unused)] at there
  cases there

/-- As long as a start waits for the slot, none of its turns touches anything. -/
theorem Sound.untouched_turn (h : s.Sound) {after : List Move}
    (waits : ((s.next (.turn k)).run after).calls k = some (.start r .queued)) :
    s.fleet.Untouched (s.next (.turn k)).fleet := by
  cases there : s.calls k with
  | none =>
    simp only [Traffic.next, there]
    exact .refl
  | some t =>
    have begun := h.begun_of_call there
    have early : t.IsEarly := by
      by_contra late
      have now : s.IsLate k := ⟨begun, fun t' there' => by cases there.symm.trans there'; exact late⟩
      exact ((now.next (.turn k)).run after).2 _ waits trivial
    have turn : s.next (.turn k) = s.turned k t := by simp only [Traffic.next, there]
    rw [turn] at waits ⊢
    cases t with
    | start r' stage =>
      refine Fleet.untouched_start early fun stage' rest => ?_
      by_contra late
      have after' : (s.turned k (.start r' stage)).calls k = some (.start r' stage') := by
        rw [calls_turned_self]
        simp only [Task.step, Turn.rest?_lift, rest, Option.map_some]
      have now : (s.turned k (.start r' stage)).IsLate k :=
        ⟨begun, fun t' there' => by cases after'.symm.trans there'; exact late⟩
      exact (now.run after).2 _ waits trivial
    | call | stop | stopAll => exact early.elim

/-- What is left of the servers of a language after a start has failed: no entry, nobody holds the slot, all
servers that were ever launched for it have ended, and documents find none. -/
structure Cleared (s : Traffic) (language : String) : Prop where
  free : s.IsFree language
  active : (s.fleet.slot language).active = none
  running : (s.fleet.slot language).running = none
  servers : ∀ i, s.fleet.Serves language i → i ∈ s.ended ∧ s.fleet.IsGone i
  unrouted : ∀ change, s.fleet.onDocument language change = (.error (.notRunning language), s.fleet)

/-- A slot that nobody holds and that has no server has none that lives. -/
theorem Sound.cleared (h : s.Sound) (free : s.IsFree language)
    (inactive : (s.fleet.slot language).active = none) : s.Cleared language := by
  have orderly := h.slots language
  have unpublished : (s.fleet.slot language).running = none := by
    have agrees := orderly.settled free
    rw [inactive] at agrees
    exact Option.map_eq_none_iff.mp agrees
  refine ⟨free, inactive, unpublished, fun i serves => ?_, Fleet.onDocument_unpublished unpublished⟩
  rcases orderly.live i serves with gone | active | ⟨k, g, own, carried⟩
  · exact ⟨gone, h.gone i gone⟩
  · rw [inactive] at active
    cases active
  · exact absurd (free k g own) (Slot.Orderly.ne_waiting carried)

/-- The call that held the slot has returned, so that nobody holds it. -/
theorem Sound.isFree_turned (h : s.Sound) (there : s.calls k = some t) {g : Grip}
    (own : t.grip language = some g) (holds : g ≠ .waiting) (ends : (t.step k s.fleet).2.rest? t = none) :
    (s.turned k t).IsFree language := by
  have gripped : s.grips language k = some g := (grips_of_call there language).trans own
  have first := (h.slots language).first k g gripped holds
  intro j g' own'
  have other : j ≠ k := by
    rintro rfl
    rw [grips, calls_turned_self, ends] at own'
    cases own'
  rw [grips, s.calls_turned_of_ne other] at own'
  exact (h.slots language).others first other own'

section failed
variable {stage : Fleet.StartStage} {e : Error} (h : s.Sound) (there : s.calls k = some (.start r stage))
  (failed : (s.fleet.start k r stage).2 = .done (.error e)) (late : ¬ stage.IsEarly)
include h there failed late

/-- A start that fails once it has had the slot holds it still, without an active server. -/
theorem Sound.grip_of_failed : ∃ g, stage.grip = some g ∧ g ≠ .waiting ∧ (∀ i, g ≠ .presenting i) ∧
    (s.fleet.slot r.language).active = none := by
  have suits {g : Grip} (own : stage.grip = some g) (holds : g ≠ .waiting) :
      (s.fleet.slot r.language).Suits g :=
    (h.slots r.language).suits k g ((grips_of_call there _).trans ((if_pos rfl).trans own)) holds
  rcases Fleet.grip_of_failed failed late with bare | ⟨i, carrying⟩
  · exact ⟨_, bare, nofun, nofun, (suits bare nofun).1⟩
  · exact ⟨_, carrying, nofun, nofun, (suits carrying nofun).1⟩

theorem Sound.cleared_turned : (s.turned k (.start r stage)).Cleared r.language := by
  obtain ⟨g, own, holds, unready, empty⟩ := h.grip_of_failed there failed late
  have gripped : (Task.start r stage).grip r.language = some g := (if_pos rfl).trans own
  have ends : ((Task.start r stage).step k s.fleet).2.rest? (.start r stage) = none := by
    simp only [Task.step, failed, Turn.lift, Turn.rest?]
  refine (h.turned there).cleared (h.isFree_turned there gripped holds ends) ?_
  -- nothing becomes the active server but what a call presents
  obtain ⟨deed, works, -⟩ := Fleet.works_start (f := s.fleet) k r stage
  by_contra active
  obtain ⟨i, there⟩ := Option.ne_none_iff_exists'.mp active
  rcases works.move.active there with before | presenting
  · cases empty.symm.trans before
  · exact unready i (Option.some.inj (own.symm.trans presenting))

end failed

/-! Starts that come later. -/

/-- Whatever server stands for a language, or is in the hands of a call for it, is not one of the first `n`
that were launched. -/
structure Since (s : Traffic) (language : String) (n : Nat) : Prop where
  bound : n ≤ s.fleet.links.length
  held : ∀ i, ((s.fleet.slot language).active = some i ∨
    ∃ k g, s.grips language k = some g ∧ g.link? = some i) → n ≤ i

theorem Cleared.since (h : s.Cleared language) : s.Since language s.fleet.links.length := by
  constructor
  · exact Nat.le_refl _
  · rintro i (active | ⟨k, g, own, carried⟩)
    · cases h.active.symm.trans active
    · exact absurd (h.free k g own) (Slot.Orderly.ne_waiting carried)

namespace Since

theorem turned (h : s.Since language n) (there : s.calls k = some t) : (s.turned k t).Since language n := by
  obtain ⟨own, deed, works, apart, -⟩ := t.works (f := s.fleet) (k := k)
  have grips (j : Nat) (other : j ≠ k) : (s.turned k t).grips language j = s.grips language j := by
    rw [Traffic.grips, Traffic.grips, s.calls_turned_of_ne other]
  have gripped : (s.turned k t).grips language k = ((t.step k s.fleet).2.rest? t).bind (Task.grip language) := by
    rw [Traffic.grips, calls_turned_self]
  refine ⟨Nat.le_trans h.bound works.grown, fun i held => ?_⟩
  by_cases same : language = own
  · subst same
    have moved : ((s.fleet.slot language).active = some i ∨
        ∃ g, t.grip language = some g ∧ g.link? = some i) ∨ deed = .launches i ∨
          ∃ k g, s.grips language k = some g ∧ g.link? = some i := by
      rcases held with active | ⟨j, g, mine, carried⟩
      · exact (works.move.held (.inl active)).imp_right .inl
      · by_cases self : j = k
        · subst self
          exact (works.move.held (.inr ⟨g, gripped.symm.trans mine, carried⟩)).imp_right .inl
        · exact .inr (.inr ⟨j, g, (grips j self).symm.trans mine, carried⟩)
    rcases moved with (active | ⟨g, mine, carried⟩) | launched | carried
    · exact h.held i (.inl active)
    · exact h.held i (.inr ⟨k, g, (grips_of_call there language).trans mine, carried⟩)
    · rw [works.fresh i launched]
      exact h.bound
    · exact h.held i (.inr carried)
  · have slot : (s.turned k t).fleet.slot language = s.fleet.slot language := works.others language same
    refine h.held i ?_
    rcases held with active | ⟨j, g, mine, carried⟩
    · exact .inl (slot ▸ active)
    · by_cases self : j = k
      · subst self
        rw [gripped, (apart language same).2] at mine
        cases mine
      · exact .inr ⟨j, g, (grips j self).symm.trans mine, carried⟩

/-- Calls that have nothing to do with a slot yet come in place of others. -/
theorem entered (h : s.Since language n) {tickets : Nat} (idle : t.grip language = none) :
    ({ s with calls := Function.update s.calls k (some t), tickets := tickets } : Traffic).Since language n := by
  refine ⟨h.bound, fun i held => h.held i ?_⟩
  rcases held with active | ⟨j, g, mine, carried⟩
  · exact .inl active
  · replace mine : Function.update (s.grips language) k (t.grip language) j = some g :=
      (congrFun (s.grips_update language k (some t)) j).symm.trans mine
    by_cases same : j = k
    · subst same
      rw [Function.update_self, idle] at mine
      cases mine
    · rw [Function.update_of_ne same] at mine
      exact .inr ⟨j, g, mine, carried⟩

theorem next (h : s.Since language n) (move : Move) : (s.next move).Since language n := by
  cases move with
  | begin t =>
    simp only [Traffic.next]
    split
    · next fresh => exact h.entered (Task.grip_of_isFresh fresh language)
    · exact h
  | turn k =>
    simp only [Traffic.next]
    split
    · exact h
    · next t there => exact h.turned there
  | note k languages =>
    simp only [Traffic.next]
    split
    · split
      · exact h.entered rfl
      · exact h
    · exact h
  | act i a =>
    obtain ⟨slots, follows⟩ := s.fleet.works_act i a
    have slot : (s.fleet.act i a).slot language = s.fleet.slot language := by rw [Fleet.slot, slots]; rfl
    exact ⟨Nat.le_trans h.bound (Nat.le_of_eq follows.length.symm), fun j held => h.held j (slot ▸ held)⟩
  | pass time => exact ⟨h.bound, h.held⟩
  | configure config launcher => exact ⟨h.bound, h.held⟩

theorem run (h : s.Since language n) (moves : List Move) : (s.run moves).Since language n := by
  induction moves generalizing s with
  | nil => exact h
  | cons move moves ih => exact ih (h.next move)

end Since

/-- The next turn of a call is the last of a start, which fails. -/
def Fails (s : Traffic) (k : Nat) (r : StartRequest) (e : Error) : Prop :=
  ∃ stage, s.calls k = some (.start r stage) ∧
    ((Task.start r stage).step k s.fleet).2 = .done (.started (.error e))

theorem Fails.stage {e : Error} (h : s.Fails k r e) :
    ∃ stage, s.calls k = some (.start r stage) ∧ (s.fleet.start k r stage).2 = .done (.error e) ∧
      s.next (.turn k) = s.turned k (.start r stage) := by
  obtain ⟨stage, there, failed⟩ := h
  refine ⟨stage, there, ?_, by simp only [next, there]⟩
  simp only [Task.step] at failed
  cases turn : (s.fleet.start k r stage).2 with
  | wait d =>
    rw [turn] at failed
    cases failed
  | go stage' =>
    rw [turn] at failed
    cases failed
  | done result =>
    rw [turn] at failed
    cases failed
    rfl

/-- A start is refused for a server that is there, unless the launcher itself refuses it. -/
theorem Sound.refused (h : s.Sound) (fair : ∀ k t, s.calls k = some t → t.IsFair) {e : Error}
    (fails : s.Fails k r e) (refusal : e.isRefusal = true) :
    (∃ i, (s.fleet.slot r.language).active = some i ∧ s.fleet.Serves r.language i) ∨
      s.fleet.LauncherRefuses r e := by
  obtain ⟨stage, there, failed, -⟩ := fails.stage
  rcases Fleet.start_refused (fair k _ there) failed refusal with ⟨-, -, i, active⟩ | launcher
  · exact .inl ⟨i, active, (h.slots r.language).owned i (.inl active)⟩
  · exact .inr launcher

theorem fair_start_run (config : String → Option LaunchConfig) (timeout : Nat) (launcher : Launcher)
    (moves : List Move) :
    ∀ k t, ((start config timeout launcher).run moves).calls k = some t → t.IsFair :=
  fair_run (fun _ _ there => by cases there) moves

/-- What a start that fails leaves behind, at whatever point of whatever run. If it was refused because a
server is there and not to be replaced, then neither its last turn nor any before it has touched anything, and
that server is the active and the published one. However else it fails, its language has no entry, all the
servers that were ever launched for the language have been shut down or terminated, and documents find no
server; and another start is refused for a server only that was launched since. Such a start tells that a server is
there only if its launcher has told so. -/
theorem failed_start_leaves_nothing (config : String → Option LaunchConfig) (timeout : Nat)
    (launcher : Launcher) (moves : List Move) (k : Nat) (r : StartRequest) (e : Error) :
    let begun := start config timeout launcher
    let s := begun.run moves
    let t := s.next (.turn k)
    s.Fails k r e →
      (t.Cleared r.language ∧ (e.isRefusal = true → s.fleet.LauncherRefuses r e) ∧
        ∀ later k' r' e', (t.run later).Fails k' r' e' → r'.language = r.language → e'.isRefusal = true →
          (∃ i, t.fleet.links.length ≤ i ∧ ((t.run later).fleet.slot r.language).active = some i ∧
            (t.run later).fleet.Serves r.language i) ∨ (t.run later).fleet.LauncherRefuses r' e') ∨
      (e = .alreadyRunning r.language ∧ r.policy = .reject ∧
        (∃ i, (t.fleet.slot r.language).active = some i ∧
          (t.fleet.slot r.language).running.map Prod.fst = some i) ∧
        s.fleet.Untouched t.fleet ∧
        ∀ before after, moves = before ++ .turn k :: after →
          (begun.run before).fleet.Untouched (begun.run (before ++ [.turn k])).fleet) := by
  intro begun s t fails
  have initial : begun.Sound := sound_start config timeout launcher
  have sound : s.Sound := initial.run moves
  have fair := fair_start_run config timeout launcher moves
  obtain ⟨stage, there, failed, turned⟩ := fails.stage
  by_cases early : stage.IsEarly
  · right
    obtain ⟨rfl, rfl, policy, first, i, active⟩ := Fleet.refused_early failed early
    have touched : s.fleet.Untouched t.fleet := by
      rw [show t = _ from turned]
      exact Fleet.untouched_start early fun stage' rest => by
        rw [failed] at rest
        cases rest
    have active' : (t.fleet.slot r.language).active = some i := (touched.active _).trans active
    refine ⟨rfl, policy, ⟨i, active', ?_⟩, touched, fun before after split => ?_⟩
    · rw [touched.running]
      have gripped : s.grips r.language k = some .waiting := (grips_of_call there _).trans (if_pos rfl)
      exact ((sound.slots r.language).suits_first gripped first).trans active
    · have rest : begun.run moves = ((begun.run before).next (.turn k)).run after := by
        rw [split, run_append]
        rfl
      have waits : (((begun.run before).next (.turn k)).run after).calls k = some (.start r .queued) := by
        rw [← rest]
        exact there
      rw [run_append]
      exact (initial.run before).untouched_turn waits
  · left
    have cleared : t.Cleared r.language := by
      rw [show t = _ from turned]
      exact sound.cleared_turned there failed early
    refine ⟨cleared, fun refusal => ?_, fun later k' r' e' fails' same refusal => ?_⟩
    · rcases Fleet.start_refused (fair k _ there) failed refusal with ⟨-, -, i, active⟩ | refuses
      · obtain ⟨-, -, -, -, empty⟩ := sound.grip_of_failed there failed early
        cases empty.symm.trans active
      · exact refuses
    · have sound' : (t.run later).Sound := (sound.next _).run later
      have fair' := fair_start_run config timeout launcher (moves ++ .turn k :: later)
      rw [run_append] at fair'
      rcases sound'.refused fair' fails' refusal with ⟨i, active, serves⟩ | refuses
      · rw [same] at active serves
        exact .inl ⟨i, (cleared.since.run later).held i (.inl active), active, serves⟩
      · exact .inr refuses

/-- A start whose server never answers, up to its last turn. -/
def unheard : List Move :=
  [.begin (.start someStart .fresh)] ++ List.replicate 9 (.turn 0) ++ [.pass 9] ++ List.replicate 3 (.turn 0)

/-- A second start for the language of a server that is there. -/
def refusal : List Move := started ++ [.begin (.start someStart .fresh), .turn 1, .turn 1]

theorem unheard_fails : (plainHost.run unheard).Fails 0 someStart (.timeout 0) := ⟨_, rfl, rfl⟩

theorem refusal_fails : (plainHost.run refusal).Fails 1 someStart (.alreadyRunning "rust") := by
  have slot : (plainHost.run refusal).fleet.holds "rust" 1 = true ∧
      ((plainHost.run refusal).fleet.slot "rust").active = some 0 := by
    rw [refusal, run_started]
    decide +kernel
  have unused : (plainHost.run started).tickets = 1 := by
    rw [← List.append_nil started, run_started]
    decide +kernel
  have call : (plainHost.run refusal).calls 1 = some (.start someStart .queued) := by
    rw [refusal, run_append]
    exact run_start_queued unused someStart
  refine ⟨_, call, ?_⟩
  simp [Task.step, Fleet.start, someStart, slot, Turn.lift]

/-- A start that fails at its first request, and one that is refused. -/
theorem unheard_leaves_nothing_and_refusal_touches_nothing :
    ((plainHost.run unheard).next (.turn 0)).Cleared "rust" ∧
      (plainHost.run refusal).fleet.Untouched ((plainHost.run refusal).next (.turn 1)).fleet := by
  have fails := failed_start_leaves_nothing plainHost.fleet.config plainHost.fleet.timeout
    plainHost.fleet.launcher unheard 0 someStart _ unheard_fails
  have refused := failed_start_leaves_nothing plainHost.fleet.config plainHost.fleet.timeout
    plainHost.fleet.launcher refusal 1 someStart _ refusal_fails
  constructor
  · rcases fails with ⟨cleared, -⟩ | ⟨other, -⟩
    · exact cleared
    · cases other
  · have stays : ((plainHost.run (refusal ++ [.turn 1])).fleet.slot "rust").active = some 0 := by
      rw [refusal, List.append_assoc, run_started]
      decide +kernel
    rw [run_append] at stays
    rcases refused with ⟨cleared, -⟩ | ⟨-, -, -, untouched, -⟩
    · cases cleared.active.symm.trans stays
    · exact untouched

end Traffic

end LanguageHost
