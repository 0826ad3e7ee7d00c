import LanguageHost.Proofs.Fleet.Accounts
import LanguageHost.Proofs.Fleet.Failures
import LanguageHost.Proofs.Fleet.Progress

/-!
Stopping every server, while no other call starts or stops one. The servers are stopped one after the other,
each of them once and none that was not there; what fails is kept until the end, and nothing is left.
-/
namespace LanguageHost

namespace Traffic

variable {s t : Traffic} {k : Nat} {move : Move} {log : List Stop}

/-- A move that begins a call that starts or stops servers. -/
def Move.manages : Move → Bool
  | .begin t => t.manages
  | _ => false

/-- What a move does of stopping servers. -/
def stopsIn (s : Traffic) : Move → List Stop
  | .turn k =>
    match s.calls k with
    | none => []
    | some t => t.stops s.fleet
  | _ => []

/-- What is done of stopping servers on a run, by whichever call. -/
def stops (s : Traffic) : List Move → List Stop
  | [] => []
  | move :: moves => s.stopsIn move ++ (s.next move).stops moves

/-- No other call than this one starts or stops servers. -/
structure Alone (s : Traffic) (k : Nat) : Prop where
  begun : k < s.tickets
  others : ∀ j t, j ≠ k → s.calls j = some t → t.manages = false

theorem exists_call {t : Task} (h : t.manages = false) : ∃ i c, t = .call i c := by
  cases t with
  | call i c => exact ⟨i, c, rfl⟩
  | start | stop | stopAll => cases h

/-- A step on a client leaves the slots alone, and goes on as one. -/
theorem step_call {f : Fleet} {i : Nat} {c : ClientCall} :
    ((Task.call i c).step k f).1.slots = f.slots ∧
      ∀ t, ((Task.call i c).step k f).2.rest? (.call i c) = some t → t.manages = false := by
  refine ⟨Fleet.onLink_slots, fun t rest => ?_⟩
  simp only [Task.step] at rest
  cases there : f.links[i]? with
  | none =>
    simp only [Fleet.onLink, there] at rest
    cases rest
  | some l =>
    rw [Fleet.onLink_some there, Turn.rest?_lift] at rest
    obtain ⟨c', -, rfl⟩ := Option.map_eq_some_iff.mp rest
    rfl

theorem Alone.next (h : s.Alone k) (unmanaged : move.manages = false) : (s.next move).Alone k := by
  cases move with
  | begin t =>
    simp only [Traffic.next]
    split
    · refine ⟨Nat.lt_succ_of_lt h.begun, fun j t' other there => ?_⟩
      by_cases same : j = s.tickets
      · subst same
        cases (Function.update_self ..).symm.trans there
        exact unmanaged
      · exact h.others j t' other ((Function.update_of_ne same ..).symm.trans there)
    · exact h
  | turn j =>
    simp only [Traffic.next]
    split
    · exact h
    · next t there =>
      refine ⟨h.begun, fun j' t' other after => ?_⟩
      by_cases same : j' = j
      · subst same
        obtain ⟨i, c, rfl⟩ := exists_call (h.others j' t other there)
        rw [calls_turned_self] at after
        exact step_call.2 t' after
      · exact h.others j' t' other ((s.calls_turned_of_ne same t).symm.trans after)
  | note j languages =>
    simp only [Traffic.next]
    split
    · next there =>
      split
      · refine ⟨h.begun, fun j' t' other after => ?_⟩
        by_cases same : j' = j
        · subst same
          cases h.others j' _ other there
        · exact h.others j' t' other ((Function.update_of_ne same ..).symm.trans after)
      · exact h
    · exact h
  | act i a => exact ⟨h.begun, h.others⟩
  | pass time => exact ⟨h.begun, h.others⟩
  | configure config launcher => exact ⟨h.begun, h.others⟩

/-- What others do is no concern of the call, nor of the slots. -/
theorem Alone.aside (h : s.Alone k) (turn : move ≠ .turn k) (note : ∀ languages, move ≠ .note k languages) :
    (s.next move).calls k = s.calls k ∧ (s.next move).fleet.slots = s.fleet.slots ∧ s.stopsIn move = [] := by
  cases move with
  | begin t =>
    refine ⟨?_, ?_, rfl⟩
    · simp only [Traffic.next]
      split
      · exact Function.update_of_ne (Nat.ne_of_lt h.begun) ..
      · rfl
    · simp only [Traffic.next]
      split
      · rfl
      · rfl
  | turn j =>
    have other : j ≠ k := by
      rintro rfl
      exact turn rfl
    cases there : s.calls j with
    | none => simp [Traffic.next, stopsIn, there]
    | some t =>
      obtain ⟨i, c, rfl⟩ := exists_call (h.others j t other there)
      simp only [Traffic.next, stopsIn, there]
      exact ⟨s.calls_turned_of_ne other.symm _, step_call.1, rfl⟩
  | note j languages =>
    have other : j ≠ k := by
      rintro rfl
      exact note languages rfl
    refine ⟨?_, ?_, rfl⟩
    · simp only [Traffic.next]
      split
      · split
        · exact Function.update_of_ne other.symm ..
        · rfl
      · rfl
    · simp only [Traffic.next]
      split
      · split
        · rfl
        · rfl
      · rfl
  | act i a => exact ⟨rfl, (s.fleet.works_act i a).1, rfl⟩
  | pass time => exact ⟨rfl, rfl, rfl⟩
  | configure config launcher => exact ⟨rfl, rfl, rfl⟩

/-- Where a call stands that has begun to stop every server of a fleet, and what is done so far. -/
inductive Quitting (before : Fleet) (k : Nat) (s : Traffic) (log : List Stop) : Prop where
  | fresh (there : s.calls k = some (.stopAll .fresh)) (slots : s.fleet.slots = before.slots) (idle : log = [])
  | noted (stage : Fleet.QuitAllStage) (results : List Stopped) (there : s.calls k = some (.stopAll stage))
      (noted : stage ≠ .fresh) (accounts : before.Accounts s.fleet stage log results)
  | returned (there : s.calls k = none)

variable {before : Fleet}

theorem Sound.linked (h : s.Sound) {stage : Fleet.QuitAllStage} (there : s.calls k = some (.stopAll stage))
    (language : String) (i : Nat) (held : (language, i) ∈ stage.hand) : ∃ l, s.fleet.links[i]? = some l := by
  have gripped : ∃ g, (Task.stopAll stage).grip language = some g ∧ g.link? = some i := by
    unfold Fleet.QuitAllStage.hand at held
    split at held
    · cases List.mem_singleton.mp held
      exact ⟨_, if_pos rfl, rfl⟩
    · cases List.mem_singleton.mp held
      exact ⟨_, if_pos rfl, rfl⟩
    · cases held
  obtain ⟨g, own, carried⟩ := gripped
  obtain ⟨l, found, -⟩ := (h.slots language).owned i (.inr ⟨k, g, (grips_of_call there _).trans own, carried⟩)
  exact ⟨l, found⟩

namespace Quitting

theorem turn (h : s.Quitting before k log) (sound : s.Sound) (sorted : before.slots.Sorted) :
    (s.next (.turn k)).Quitting before k (log ++ s.stopsIn (.turn k)) := by
  cases h with
  | fresh there slots idle =>
    subst idle
    have turned : s.next (.turn k) = s.turned k (.stopAll .fresh) := by simp only [Traffic.next, there]
    rw [turned, stopsIn, there]
    refine .noted _ [] (calls_turned_self ..) (by simp) (.start sorted ?_ slots)
    exact .of_eq (congrArg Table.keys slots)
  | noted stage results there noted accounts =>
    have turned : s.next (.turn k) = s.turned k (.stopAll stage) := by simp only [Traffic.next, there]
    rw [turned, stopsIn, there]
    have after : (s.turned k (.stopAll stage)).calls k =
        ((s.fleet.stopAll k stage).2.rest? stage).map .stopAll := by
      rw [calls_turned_self]
      exact Turn.rest?_lift ..
    cases rest : (s.fleet.stopAll k stage).2.rest? stage with
    | none =>
      refine .returned ?_
      rw [after, rest]
      rfl
    | some stage' =>
      obtain ⟨results', accounts'⟩ := accounts.turn noted (sound.linked there) rest
      have call : (s.turned k (.stopAll stage)).calls k = some (.stopAll stage') := by
        rw [after, rest]
        rfl
      exact .noted stage' results' call (Fleet.noted_stopAll noted rest) accounts'
  | returned there =>
    refine .returned ?_
    simp only [Traffic.next, there]

theorem note (h : s.Quitting before k log) (sorted : before.slots.Sorted) (languages : List String) :
    (s.next (.note k languages)).Quitting before k log := by
  cases h with
  | fresh there slots idle =>
    subst idle
    simp only [Traffic.next, there]
    split
    · next same =>
      exact .noted _ [] (Function.update_self ..) (by simp) (.start sorted (slots ▸ same) slots)
    · exact .fresh there slots rfl
  | noted stage results there noted accounts =>
    have still : s.next (.note k languages) = s := by
      simp only [Traffic.next, there]
      split
      · next same =>
        cases same
        exact absurd rfl noted
      · rfl
    rw [still]
    exact .noted stage results there noted accounts
  | returned there =>
    refine .returned ?_
    simp only [Traffic.next, there]

theorem next (h : s.Quitting before k log) (sound : s.Sound) (alone : s.Alone k)
    (sorted : before.slots.Sorted) (move : Move) :
    (s.next move).Quitting before k (log ++ s.stopsIn move) := by
  by_cases turns : move = .turn k
  · subst turns
    exact h.turn sound sorted
  by_cases notes : ∃ languages, move = .note k languages
  · obtain ⟨languages, rfl⟩ := notes
    rw [show s.stopsIn (.note k languages) = [] from rfl, List.append_nil]
    exact h.note sorted languages
  · obtain ⟨call, slots, idle⟩ := alone.aside turns fun languages same => notes ⟨languages, same⟩
    rw [idle, List.append_nil]
    cases h with
    | fresh there slots' idle => exact .fresh (call.trans there) (slots.trans slots') idle
    | noted stage results there noted accounts =>
      have same (language : String) : ((s.next move).fleet.slot language).active =
          (s.fleet.slot language).active := by
        rw [Fleet.slot, slots]
        rfl
      exact .noted stage results (call.trans there) noted (accounts.keep rfl rfl rfl rfl same)
    | returned there => exact .returned (call.trans there)

theorem run (h : s.Quitting before k log) (sound : s.Sound) (alone : s.Alone k)
    (sorted : before.slots.Sorted) {moves : List Move} (unmanaged : ∀ move ∈ moves, move.manages = false) :
    (s.run moves).Sound ∧ (s.run moves).Alone k ∧
      (s.run moves).Quitting before k (log ++ s.stops moves) := by
  induction moves generalizing s log with
  | nil =>
    refine ⟨sound, alone, ?_⟩
    rw [stops, List.append_nil]
    exact h
  | cons move moves ih =>
    have rest (m : Move) (later : m ∈ moves) := unmanaged m (List.mem_cons_of_mem _ later)
    rw [stops, ← List.append_assoc]
    exact ih (h.next sound alone sorted move) (sound.next move)
      (alone.next (unmanaged move List.mem_cons_self)) rest

end Quitting

/-! The call returns. -/

/-- The next turn of a call is its last one, with a result. -/
def Returns (s : Traffic) (k : Nat) (result : Except ShutdownErrors Unit) : Prop :=
  ∃ t, s.calls k = some t ∧ (t.step k s.fleet).2 = .done (.allEnded result)

/-- Nothing but turns of one call, and time that passes. -/
def Move.IsOf (k : Nat) (move : Move) : Prop := move = .turn k ∨ ∃ time, move = .pass time

theorem Move.IsOf.unmanaged (h : move.IsOf k) : move.manages = false := by
  obtain rfl | ⟨time, rfl⟩ := h
  · rfl
  · rfl

theorem returns_stopAll {stage : Fleet.QuitAllStage} {result : Except ShutdownErrors Unit}
    (there : s.calls k = some (.stopAll stage)) (done : (s.fleet.stopAll k stage).2 = .done result) :
    s.Returns k result :=
  ⟨_, there, by simp only [Task.step, done, Turn.lift]⟩

theorem calls_stopAll {stage stage' : Fleet.QuitAllStage} (there : s.calls k = some (.stopAll stage))
    (rest : (s.fleet.stopAll k stage).2.rest? stage = some stage') :
    (s.next (.turn k)).calls k = some (.stopAll stage') := by
  simp only [Traffic.next, there]
  rw [calls_turned_self]
  simp only [Task.step, Turn.rest?_lift, rest, Option.map_some]

/-- Whoever is the only one in a queue is in front. -/
theorem Sound.holds (h : s.Sound) (alone : s.Alone k) {language : String} {g : Grip}
    (own : s.grips language k = some g) : s.fleet.holds language k = true := by
  have orderly := h.slots language
  have inside : k ∈ (s.fleet.slot language).queue := (orderly.queued k).mpr (by simp [own])
  have sole (j : Nat) (there : j ∈ (s.fleet.slot language).queue) : j = k := by
    by_contra other
    obtain ⟨g', own'⟩ := Option.ne_none_iff_exists'.mp ((orderly.queued j).mp there)
    obtain ⟨t, begun, gripped⟩ := Option.bind_eq_some_iff.mp own'
    obtain ⟨i, c, rfl⟩ := exists_call (alone.others j t other begun)
    cases gripped
  unfold Fleet.holds
  cases queue : (s.fleet.slot language).queue with
  | nil =>
    rw [queue] at inside
    cases inside
  | cons j rest =>
    rw [sole j (queue ▸ List.mem_cons_self)]
    exact beq_self_eq_true _

theorem Sound.progresses (h : s.Sound) (alone : s.Alone k) {stage : Fleet.QuitAllStage}
    (there : s.calls k = some (.stopAll stage)) (noted : stage ≠ .fresh) :
    (s.fleet.stopAll k stage).2.Progresses Fleet.QuitAllStage.steps stage
      fun later => (((s.fleet.stopAll k stage).1.atTime later).stopAll k stage).2 := by
  refine Fleet.progresses_stopAll rfl noted fun language todo failures same => ?_
  subst same
  exact h.holds alone ((grips_of_call there language).trans (if_pos rfl))

/-- By itself, and in time, the call comes nearer to its end. -/
theorem Sound.nearer (h : s.Sound) (alone : s.Alone k) {stage : Fleet.QuitAllStage}
    (there : s.calls k = some (.stopAll stage)) (noted : stage ≠ .fresh) :
    ∃ more : List Move, (∀ move ∈ more, move.IsOf k) ∧ ((∃ result, (s.run more).Returns k result) ∨
      ∃ stage', (s.run more).calls k = some (.stopAll stage') ∧ stage' ≠ .fresh ∧
        stage'.steps < stage.steps) := by
  have progresses := h.progresses alone there noted
  cases turn : (s.fleet.stopAll k stage).2 with
  | done result => exact ⟨[], by rintro _ ⟨⟩, .inl ⟨result, returns_stopAll there turn⟩⟩
  | go stage' =>
    rw [turn] at progresses
    have rest : (s.fleet.stopAll k stage).2.rest? stage = some stage' := by
      rw [turn]
      rfl
    refine ⟨[.turn k], ?_, .inr ⟨stage', calls_stopAll there rest, Fleet.noted_stopAll noted rest, progresses⟩⟩
    intro move own
    exact .inl (List.mem_singleton.mp own)
  | wait d =>
    rw [turn] at progresses
    obtain ⟨time, -, unwaiting⟩ := progresses
    have rest : (s.fleet.stopAll k stage).2.rest? stage = some stage := by
      rw [turn]
      rfl
    have later := calls_stopAll there rest
    have fleet : (s.next (.turn k)).fleet = (s.fleet.stopAll k stage).1 := by
      simp only [Traffic.next, there]
      rfl
    let s' := (s.next (.turn k)).next (.pass time)
    have there' : s'.calls k = some (.stopAll stage) := later
    have h' : s'.Sound := (h.next _).next _
    have alone' : s'.Alone k := (alone.next rfl).next rfl
    have due : ¬ (s'.fleet.stopAll k stage).2.IsWait := by
      have ends := unwaiting (max (s.next (.turn k)).fleet.now time) (Nat.le_max_right ..)
      rw [← fleet] at ends
      exact ends
    have progresses' := h'.progresses alone' there' noted
    cases turn' : (s'.fleet.stopAll k stage).2 with
    | wait d =>
      rw [turn'] at due
      exact absurd trivial due
    | done result =>
      refine ⟨[.turn k, .pass time], ?_, .inl ⟨result, returns_stopAll there' turn'⟩⟩
      simp [Move.IsOf]
    | go stage' =>
      rw [turn'] at progresses'
      have rest' : (s'.fleet.stopAll k stage).2.rest? stage = some stage' := by
        rw [turn']
        rfl
      refine ⟨[.turn k, .pass time, .turn k], ?_,
        .inr ⟨stage', calls_stopAll there' rest', Fleet.noted_stopAll noted rest', progresses'⟩⟩
      simp [Move.IsOf]

theorem Alone.run (h : s.Alone k) {moves : List Move} (unmanaged : ∀ move ∈ moves, move.manages = false) :
    (s.run moves).Alone k := by
  induction moves generalizing s with
  | nil => exact h
  | cons move moves ih =>
    exact ih (h.next (unmanaged move List.mem_cons_self)) fun m later =>
      unmanaged m (List.mem_cons_of_mem _ later)

theorem Sound.returns_noted (h : s.Sound) (alone : s.Alone k) {stage : Fleet.QuitAllStage}
    (there : s.calls k = some (.stopAll stage)) (noted : stage ≠ .fresh) :
    ∃ more result, (∀ move ∈ more, move.IsOf k) ∧ (s.run more).Returns k result := by
  induction steps : stage.steps using Nat.strongRecOn generalizing s stage with
  | ind n ih =>
    subst steps
    obtain ⟨more, own, ⟨result, returns⟩ | ⟨stage', there', noted', nearer⟩⟩ := h.nearer alone there noted
    · exact ⟨more, result, own, returns⟩
    · have alone' := alone.run fun move there => (own move there).unmanaged
      obtain ⟨more', result, own', returns⟩ := ih _ nearer (h.run more) alone' there' noted' rfl
      refine ⟨more ++ more', result, fun move there => ?_, ?_⟩
      · exact (List.mem_append.mp there).elim (own move) (own' move)
      · rw [run_append]
        exact returns

theorem Sound.returns (h : s.Sound) (alone : s.Alone k) {stage : Fleet.QuitAllStage}
    (there : s.calls k = some (.stopAll stage)) :
    ∃ more result, (∀ move ∈ more, move.IsOf k) ∧ (s.run more).Returns k result := by
  by_cases noted : stage = .fresh
  · subst noted
    have there' : (s.next (.turn k)).calls k = some (.stopAll (.next s.fleet.slots.keys [])) :=
      calls_stopAll there rfl
    obtain ⟨more, result, own, returns⟩ := (h.next _).returns_noted (alone.next rfl) there' nofun
    refine ⟨.turn k :: more, result, fun move there => ?_, returns⟩
    rcases List.mem_cons.mp there with rfl | later
    · exact .inl rfl
    · exact own move later
  · exact h.returns_noted alone there noted

/-! What it returns. -/

theorem sorted_next (h : s.fleet.slots.Sorted) (move : Move) : (s.next move).fleet.slots.Sorted := by
  cases move with
  | begin t =>
    simp only [Traffic.next]
    split
    · exact h
    · exact h
  | turn j =>
    simp only [Traffic.next]
    split
    · exact h
    · next t there =>
      obtain ⟨language, deed, works, -⟩ := t.works (f := s.fleet) (k := j)
      exact works.sorted h
  | note j languages =>
    simp only [Traffic.next]
    split
    · split
      · exact h
      · exact h
    · exact h
  | act i a =>
    simp only [Traffic.next]
    rw [(s.fleet.works_act i a).1]
    exact h
  | pass time => exact h
  | configure config launcher => exact h

theorem sorted_run (h : s.fleet.slots.Sorted) (moves : List Move) : (s.run moves).fleet.slots.Sorted := by
  induction moves generalizing s with
  | nil => exact h
  | cons move moves ih => exact ih (sorted_next h move)

theorem activeLanguages_of_cleared (sorted : s.fleet.slots.Sorted) (cleared : ∀ language, s.Cleared language) :
    s.fleet.activeLanguages = [] := by
  unfold Fleet.activeLanguages
  rw [List.map_eq_nil_iff, List.filter_eq_nil_iff]
  rintro ⟨language, slot⟩ there
  have running := (cleared language).running
  rw [Fleet.slot, sorted.mem_iff_get?.mp there] at running
  change slot.running = none at running
  simp [running]

theorem Returns.stage {result : Except ShutdownErrors Unit} (h : s.Returns k result)
    {stage : Fleet.QuitAllStage} (there : s.calls k = some (.stopAll stage)) :
    (s.fleet.stopAll k stage).2 = .done result := by
  obtain ⟨t, there', done⟩ := h
  cases there.symm.trans there'
  simp only [Task.step] at done
  cases turn : (s.fleet.stopAll k stage).2 with
  | done r =>
    rw [turn] at done
    cases done
    rfl
  | wait d =>
    rw [turn] at done
    cases done
  | go stage' =>
    rw [turn] at done
    cases done

/-- Where the call returns all languages have been seen to, and nothing is left. -/
theorem Alone.cleared (alone : s.Alone k) (h : s.Sound) {failures : Fleet.Failures}
    (there : s.calls k = some (.stopAll (.next [] failures)))
    (empty : ∀ language, (s.fleet.slot language).active = none) (language : String) :
    (s.next (.turn k)).Cleared language := by
  have turned : s.next (.turn k) = s.turned k (.stopAll (.next [] failures)) := by
    simp only [Traffic.next, there]
  have free : (s.next (.turn k)).IsFree language := by
    intro j g own
    obtain ⟨t, begun, gripped⟩ := Option.bind_eq_some_iff.mp own
    by_cases same : j = k
    · subst same
      rw [turned, calls_turned_self] at begun
      cases begun
    · have still : (s.next (.turn k)).Alone k := alone.next rfl
      obtain ⟨i, c, rfl⟩ := exists_call (still.others j t same begun)
      cases gripped
  refine (h.next _).cleared free ?_
  rw [turned]
  exact empty language

/-- Stopping every server, from whatever state of a host no other call is under way that starts or stops
servers, and whatever else goes on meanwhile, as long as no such call begins. It comes to its end, by its own
turns and in time. Then no language has an active server and nothing is left of any; the servers that were active
when it began, and no others, were stopped one after the other, each of them once; and the result is a success
just if every one of these stops was, and otherwise it holds the failures of those that failed, in the strict
order of their languages. -/
theorem stopping_all_is_complete (config : String → Option LaunchConfig) (timeout : Nat) (launcher : Launcher)
    (moves later : List Move) :
    let s := (start config timeout launcher).run moves
    let k := s.tickets
    let begun := s.next (.begin (.stopAll .fresh))
    let t := begun.run later
    (∀ j call, s.calls j = some call → call.manages = false) → (∀ move ∈ later, move.manages = false) →
      (t.calls k = none ∨
        ∃ more result, (∀ move ∈ more, move.IsOf k) ∧ (t.run more).Returns k result) ∧
      ∀ result, t.Returns k result →
        let after := t.next (.turn k)
        (after.fleet.activeLanguages = [] ∧ ∀ language, after.Cleared language) ∧
          ∃ results : List Stopped,
            begun.stops later = results.flatMap Stopped.course ∧
            (results.map Stopped.server).Nodup ∧
            (∀ language i, (language, i) ∈ results.map Stopped.server ↔
              (s.fleet.slot language).active = some i) ∧
            (result = .ok () ↔ ∀ x ∈ results, x.result = .ok ()) ∧
            ∀ e, result = .error e → e.failures.Pairwise (fun x y => x.1 < y.1) ∧
              e.failures.Perm (results.filterMap Stopped.failure?) := by
  intro s k begun t quiet unmanaged
  have sound : s.Sound := (sound_start config timeout launcher).run moves
  have sorted : s.fleet.slots.Sorted := sorted_run (s := start config timeout launcher) List.Pairwise.nil moves
  have alone : begun.Alone k := by
    refine ⟨Nat.lt_succ_self k, fun j call other there => quiet j call ?_⟩
    exact (Function.update_of_ne other ..).symm.trans there
  have first : begun.Quitting s.fleet k [] := .fresh (Function.update_self ..) rfl rfl
  obtain ⟨sound', alone', quitting⟩ := first.run (sound.next _) alone sorted unmanaged
  rw [List.nil_append] at quitting
  constructor
  · cases quitting with
    | fresh there => exact .inr (sound'.returns alone' there)
    | noted stage results there => exact .inr (sound'.returns alone' there)
    | returned there => exact .inl there
  · intro result returns after
    cases quitting with
    | fresh there => cases returns.stage there
    | noted stage results there noted accounts =>
      obtain ⟨failures, rfl, told⟩ := Fleet.stopAll_done (returns.stage there)
      have cleared := alone'.cleared sound' there fun language => accounts.taken language List.not_mem_nil
      have sorted' : after.fleet.slots.Sorted := sorted_next (sorted_run sorted (_ :: later)) (.turn k)
      have servers : (results.map Stopped.server).Perm s.fleet.started := by
        have servers := accounts.servers
        rwa [show Fleet.QuitAllStage.hand (.next [] failures) = [] from rfl, List.nil_append,
          show Fleet.QuitAllStage.todo (.next [] failures) = [] from rfl, List.filterMap_nil,
          List.append_nil] at servers
      have apart : (results.map Stopped.server).Pairwise fun x y => x.1 ≠ y.1 :=
        (servers.pairwise_iff fun apart => Ne.symm apart).mpr (Fleet.apart_started sorted)
      refine ⟨⟨activeLanguages_of_cleared sorted' cleared, cleared⟩, results, ?_, ?_, fun language i => ?_, ?_⟩
      · rw [accounts.log]
        exact List.append_nil _
      · exact apart.imp fun different same => different (congrArg Prod.fst same)
      · rw [servers.mem_iff, Fleet.mem_started]
      · exact Stopped.outcome ((List.pairwise_map (f := Stopped.server)).mp apart) accounts.failures told
    | returned there =>
      obtain ⟨call, there', -⟩ := returns
      cases there.symm.trans there'

/-- A server has crashed. -/
def abandoned : List Move := started ++ endOfOutput

/-- The stopping of every server, up to its last turn. -/
def clearing : List Move := List.replicate 9 (.turn 1) ++ [.pass 5000] ++ List.replicate 2 (.turn 1)

theorem idle_abandoned : (plainHost.run abandoned).tickets = 1 ∧
    ∀ j call, (plainHost.run abandoned).calls j = some call → call.manages = false := by
  have ended : (plainHost.run abandoned).tickets = 1 ∧ ((plainHost.run abandoned).calls 0).isNone = true := by
    rw [abandoned, run_started]
    decide +kernel
  have sound : (plainHost.run abandoned).Sound := (sound_start ..).run abandoned
  refine ⟨ended.1, fun j call there => ?_⟩
  have begun := sound.begun_of_call there
  rw [ended.1] at begun
  cases Nat.lt_one_iff.mp begun
  rw [Option.isNone_iff_eq_none.mp ended.2] at there
  cases there

/-- Whether the call has nothing left to stop and tells these failures. -/
def tellsNext (s : Traffic) (k : Nat) (failures : List (String × Error)) : Bool :=
  match s.calls k with
  | some (.stopAll (.next [] noted)) => decide (noted = failures)
  | _ => false

theorem stage_of_tellsNext {s : Traffic} {k : Nat} {failures : List (String × Error)}
    (h : s.tellsNext k failures = true) : s.calls k = some (.stopAll (.next [] failures)) := by
  unfold tellsNext at h
  split at h
  · next there => rw [there, of_decide_eq_true h]
  · cases h

theorem returns_clearing :
    (((plainHost.run abandoned).next (.begin (.stopAll .fresh))).run clearing).Returns 1
      (.error ⟨[("rust", .crashed "rust")]⟩) := by
  have whole : ((plainHost.run abandoned).next (.begin (.stopAll .fresh))).run clearing =
      plainHost.run (started ++ (endOfOutput ++ .begin (.stopAll .fresh) :: clearing)) := by
    rw [← List.append_assoc, run_append]
    rfl
  have last : (((plainHost.run abandoned).next (.begin (.stopAll .fresh))).run clearing).tellsNext 1
      [("rust", .crashed "rust")] = true := by
    rw [whole, run_started]
    decide +kernel
  refine ⟨_, stage_of_tellsNext last, ?_⟩
  simp [Task.step, Fleet.stopAll, Turn.lift, Fleet.sortFailures]

/-- A crashed server is stopped all the same, and its failure is the one that is told. -/
theorem stopping_all_tells_of_the_crashed :
    let begun := (plainHost.run abandoned).next (.begin (.stopAll .fresh))
    ((begun.run clearing).next (.turn 1)).fleet.activeLanguages = [] ∧
      ∃ results : List Stopped, begun.stops clearing = results.flatMap Stopped.course ∧
        results.filterMap Stopped.failure? = [("rust", .crashed "rust")] := by
  intro begun
  obtain ⟨tickets, quiet⟩ := idle_abandoned
  have complete := stopping_all_is_complete plainHost.fleet.config plainHost.fleet.timeout
    plainHost.fleet.launcher abandoned clearing quiet (by decide)
  obtain ⟨-, told⟩ := complete
  have returns : (begun.run clearing).Returns (plainHost.run abandoned).tickets
      (.error ⟨[("rust", .crashed "rust")]⟩) := by
    rw [tickets]
    exact returns_clearing
  obtain ⟨⟨inactive, -⟩, results, log, -, -, -, failures⟩ := told _ returns
  refine ⟨?_, results, log, (List.singleton_perm.mp (failures _ rfl).2).symm⟩
  exact tickets ▸ inactive

end Traffic

end LanguageHost
