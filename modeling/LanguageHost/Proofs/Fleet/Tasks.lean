import LanguageHost.Proofs.Fleet.Steps
import LanguageHost.Proofs.Session.Run
import LanguageHost.Session.Schedule

/-!
One step of a call, whatever it is: it works on the slot of one language, if on any, and the servers that
it has ended are gone. In rounds of jobs, however many it takes, and whatever the links and the other jobs do
meanwhile, a task is only ever where its own steps have taken it, and its result is that of its last one.
-/
namespace LanguageHost

namespace Turn

variable {σ τ α β : Type}

theorem lift_lift {υ γ : Type} (stage : σ → τ) (stage' : τ → υ) (finish : α → β) (finish' : β → γ)
    (turn : Turn σ α) : (turn.lift stage finish).lift stage' finish' =
      turn.lift (fun s => stage' (stage s)) fun a => finish' (finish a) := by
  cases turn with
  | _ => rfl

end Turn

namespace Fleet

theorem Buries.lift {f : Fleet} {σ τ α β : Type} {reaps : Nat → σ → Prop} {reaps' : Nat → τ → Prop}
    {stage : σ} {turn : Turn σ α} {ended? ended?' : Option Nat} (h : f.Buries reaps stage turn ended?)
    (wrap : σ → τ) (finish : α → β) (same : ended?' = ended?)
    (waits : ∀ i s, reaps' i (wrap s) → reaps i s) :
    f.Buries reaps' (wrap stage) (turn.lift wrap finish) ended?' := by
  obtain ⟨ended, rest⟩ := h
  constructor
  · exact same ▸ ended
  · intro i t after reaping
    rw [Turn.rest?_lift] at after
    obtain ⟨s, stands, rfl⟩ := Option.map_eq_some_iff.mp after
    exact rest i s stands (waits i s reaping)

end Fleet

namespace Task

/-- Calls begin at their first stage. -/
def isFresh : Task → Bool
  | .call _ c => c.isFresh
  | .start _ .fresh | .stop _ .fresh | .stopAll .fresh => true
  | _ => false

/-- What a call has done with the slot of a language. -/
def grip (language : String) : Task → Option Grip
  | .start r s => if r.language = language then s.grip else none
  | .stop other (.evicting s) => if other = language then s.grip else none
  | .stopAll (.evicting other s _ _) => if other = language then s.grip else none
  | _ => none

def Reaps (i : Nat) : Task → Prop
  | .start _ s => s.Reaps i
  | .stop _ (.evicting s) => s.Reaps i
  | .stopAll (.evicting _ s _ _) => s.Reaps i
  | _ => False

/-- The server that was shut down or terminated in a turn of a start or a stop. -/
def ended? : Task → Turn Task Outcome → Option Nat
  | .start _ (.replacing i _), .go (.start _ .launching) => some i
  | .start _ (.failed i _), .done _ => some i
  | .stop _ (.evicting (.ending i _)), .done _ => some i
  | .stopAll (.evicting _ (.ending i _) _ _), .go (.stopAll (.next _ _)) => some i
  | _, _ => none

theorem grip_of_isFresh {t : Task} (h : t.isFresh = true) (language : String) : t.grip language = none := by
  unfold isFresh at h
  split at h
  · rfl
  · simp [grip, Fleet.StartStage.grip]
  · rfl
  · rfl
  · cases h

theorem reaps_of_isFresh {t : Task} (h : t.isFresh = true) (i : Nat) : ¬ t.Reaps i := by
  unfold isFresh at h
  split at h
  · exact id
  · exact id
  · exact id
  · exact id
  · cases h

variable {f f' : Fleet} {k : Nat} {language : String} {turn : Turn Task Outcome}

/-- What a step of a call does: it works on the slot of one language, if on any. -/
structure Works (f : Fleet) (k : Nat) (t : Task) (f' : Fleet) (turn : Turn Task Outcome) (language : String)
    (deed : Deed) : Prop where
  slot : f.Works k language (t.grip language) f' ((turn.rest? t).bind (grip language)) deed
  apart : ∀ other, other ≠ language → t.grip other = none ∧ (turn.rest? t).bind (grip other) = none
  ended : deed.ended? = t.ended? turn

/-- A step that is no concern of the slots. -/
theorem Works.aside {t : Task} (grip : ∀ other, t.grip other = none)
    (rest : ∀ other, (turn.rest? t).bind (Task.grip other) = none) (ended : t.ended? turn = none)
    (slots : f'.slots = f.slots) (follows : f.Follows f') : Works f k t f' turn language .none := by
  constructor
  · rw [grip, rest]
    exact .stays slots follows
  · exact fun other _ => ⟨grip other, rest other⟩
  · exact ended.symm

/-- A call that works on the slot of its language all the time. -/
theorem Works.wrap {σ : Type} {gripOf : σ → Option Grip} {s : σ} {rest : Option σ} {deed : Deed}
    (wrap : σ → Task) (gripped : ∀ other s, (wrap s).grip other = if language = other then gripOf s else none)
    (works : f.Works k language (gripOf s) f' (rest.bind gripOf) deed)
    (after : ∀ other, (turn.rest? (wrap s)).bind (grip other) = rest.bind fun s => (wrap s).grip other)
    (ended : deed.ended? = (wrap s).ended? turn) : Works f k (wrap s) f' turn language deed := by
  constructor
  · simp only [after, gripped, if_true]
    exact works
  · intro other apart
    simp only [after, gripped, if_neg apart.symm]
    exact ⟨trivial, Option.bind_fun_none _⟩
  · exact ended

theorem works_call (i : Nat) (c : ClientCall) :
    Works f k (.call i c) (step k f (.call i c)).1 (step k f (.call i c)).2 language .none := by
  simp only [step]
  cases there : f.links[i]? with
  | none =>
    simp only [Fleet.onLink, there]
    exact .aside (fun _ => rfl) (fun _ => rfl) rfl rfl (.of_links rfl)
  | some l =>
    rcases stepped : f.onLink i (fun l => ((c.step f.now l).1, (c.step f.now l).2.lift (Task.call i) id))
      (.done lost) with ⟨f', turn⟩
    obtain ⟨slots, follows⟩ := Fleet.works_onLink stepped fun l => c.continues_step f.now l
    rw [Fleet.onLink_some there] at stepped
    obtain ⟨-, same⟩ := Prod.mk.inj stepped
    refine .aside (fun _ => rfl) (fun other => ?_) rfl slots follows
    rw [← same, Turn.rest?_lift, Option.bind_map]
    exact Option.bind_fun_none _

theorem ended?_start (r : StartRequest) (s : Fleet.StartStage)
    (turn : Turn Fleet.StartStage (Except Error Nat)) :
    (Task.start r s).ended? (turn.lift (.start r) .started) = s.ended? turn := by
  cases s with
  | replacing i s =>
    cases turn with
    | wait d => rfl
    | go s' =>
      cases s' with
      | _ => rfl
    | done a => rfl
  | failed i e =>
    cases turn with
    | _ => rfl
  | _ => rfl

theorem works_start (r : StartRequest) (s : Fleet.StartStage) :
    ∃ deed, Works f k (.start r s) (step k f (.start r s)).1 (step k f (.start r s)).2 r.language deed := by
  obtain ⟨deed, works, ended⟩ := f.works_start k r s
  have same := ended.trans (ended?_start r s (f.start k r s).2).symm
  refine ⟨deed, .wrap (.start r) (fun _ _ => rfl) works (fun other => ?_) same⟩
  simp only [step, Turn.rest?_lift, Option.bind_map]
  rfl

theorem ended?_stop (language : String) (s : Fleet.EvictStage)
    (turn : Turn Fleet.EvictStage (Option (Except Error Unit)))
    (finish : Option (Except Error Unit) → Except Error Unit) :
    (Task.stop language (.evicting s)).ended? ((turn.lift .evicting finish).lift (.stop language) .ended) =
      s.ended? turn := by
  cases s with
  | ending i s =>
    cases turn with
    | _ => rfl
  | _ => rfl

theorem works_stop (language : String) (s : Fleet.QuitStage) :
    ∃ deed, Works f k (.stop language s) (step k f (.stop language s)).1 (step k f (.stop language s)).2
      language deed := by
  cases s with
  | fresh =>
    simp only [step, Fleet.stop]
    split
    · exact ⟨.none, .aside (fun _ => rfl) (fun _ => ite_self none) rfl rfl (.of_links rfl)⟩
    · exact ⟨.none, .aside (fun _ => rfl) (fun _ => rfl) rfl rfl (.of_links rfl)⟩
  | evicting s =>
    obtain ⟨deed, works, ended⟩ := f.works_evict k language s
    refine ⟨deed, .wrap (fun s => .stop language (.evicting s)) (fun _ _ => rfl) works
      (fun other => ?_) (ended.trans ?_)⟩
    · simp only [step, Fleet.stop, Turn.rest?_lift, Option.bind_map]
      rfl
    · exact (ended?_stop language s _ _).symm

theorem works_stopAll (s : Fleet.QuitAllStage) :
    ∃ language deed, Works f k (.stopAll s) (step k f (.stopAll s)).1 (step k f (.stopAll s)).2
      language deed := by
  cases s with
  | fresh => exact ⟨"", .none, .aside (fun _ => rfl) (fun _ => rfl) rfl rfl (.of_links rfl)⟩
  | next todo failures =>
    cases todo with
    | nil => exact ⟨"", .none, .aside (fun _ => rfl) (fun _ => rfl) rfl rfl (.of_links rfl)⟩
    | cons language todo =>
      exact ⟨language, .none, .aside (fun _ => rfl) (fun _ => ite_self none) rfl rfl (.of_links rfl)⟩
  | evicting language s todo failures =>
    obtain ⟨deed, works, ended⟩ := f.works_evict k language s
    rcases stepped : f.evict k language s with ⟨f', turn⟩
    rw [stepped] at works ended
    refine ⟨language, deed, ?_⟩
    simp only [step, Fleet.stopAll, stepped]
    cases turn with
    | wait d =>
      refine .wrap (fun s => .stopAll (.evicting language s todo failures)) (fun _ _ => rfl) works
        (fun _ => rfl) (ended.trans ?_)
      cases s with
      | _ => rfl
    | go s' =>
      refine .wrap (fun s => .stopAll (.evicting language s todo failures)) (fun _ _ => rfl) works
        (fun _ => rfl) (ended.trans ?_)
      cases s with
      | _ => rfl
    | done r =>
      refine .wrap (fun s => .stopAll (.evicting language s todo failures)) (fun _ _ => rfl) works
        (fun _ => rfl) (ended.trans ?_)
      cases s with
      | _ => rfl

/-- Every step of a call works on the slot of one language, if on any. -/
theorem works (t : Task) :
    ∃ language deed, Works f k t (step k f t).1 (step k f t).2 language deed := by
  cases t with
  | call i c => exact ⟨"", .none, works_call i c⟩
  | start r s => exact ⟨r.language, works_start r s⟩
  | stop language s => exact ⟨language, works_stop language s⟩
  | stopAll s => exact works_stopAll s

theorem gone_stopAll {language : String} {s : Fleet.EvictStage} {todo : List String}
    {failures : Fleet.Failures} (there : ∀ i, s.grip = some (.carrying i) → ∃ l, f.links[i]? = some l)
    (known : ∀ i, s.Reaps i → f.IsGone i) :
    (step k f (.stopAll (.evicting language s todo failures))).1.Buries Reaps
      (.stopAll (.evicting language s todo failures))
      (step k f (.stopAll (.evicting language s todo failures))).2
      (ended? (.stopAll (.evicting language s todo failures))
        (step k f (.stopAll (.evicting language s todo failures))).2) := by
  have buried := Fleet.gone_evict k language there known
  rcases stepped : f.evict k language s with ⟨f', turn⟩
  rw [stepped] at buried
  obtain ⟨ended, rest⟩ := buried
  simp only [step, Fleet.stopAll, stepped]
  cases turn with
  | wait d =>
    refine .wait ?_ fun i => rest i s rfl
    cases s with
    | _ => rfl
  | go s' =>
    refine .go (fun i => ?_) fun i => rest i s' rfl
    cases s with
    | _ => exact nofun
  | done r =>
    refine .go (fun i => ?_) fun _ => False.elim
    cases s with
    | ending j s => exact ended i
    | _ => exact nofun

/-- Whatever server a call has ended, or whose process it waits for, is gone. -/
theorem gone {t : Task}
    (there : ∀ language i, t.grip language = some (.carrying i) → ∃ l, f.links[i]? = some l)
    (known : ∀ i, t.Reaps i → f.IsGone i) :
    (step k f t).1.Buries Reaps t (step k f t).2 (t.ended? (step k f t).2) := by
  cases t with
  | call i c =>
    simp only [step]
    cases found : f.links[i]? with
    | none =>
      simp only [Fleet.onLink, found]
      exact .done Fleet.Buries.none_ended
    | some l =>
      simp only [Fleet.onLink_some found]
      cases (c.step f.now l).2 with
      | wait d => exact .wait rfl fun _ => False.elim
      | go c' => exact .go Fleet.Buries.none_ended fun _ => False.elim
      | done r => exact .done Fleet.Buries.none_ended
  | start r s =>
    have buried := Fleet.gone_start k r (fun i grip => there r.language i ((if_pos rfl).trans grip))
      known
    exact buried.lift (Task.start r) Outcome.started (ended?_start r s _) fun _ _ => id
  | stop language s =>
    cases s with
    | fresh =>
      simp only [step, Fleet.stop]
      split
      · exact .go Fleet.Buries.none_ended fun _ => False.elim
      · exact .done Fleet.Buries.none_ended
    | evicting s =>
      have buried := Fleet.gone_evict k language
        (fun i grip => there language i ((if_pos rfl).trans grip)) known
      simp only [step, Fleet.stop, ended?_stop]
      rw [Turn.lift_lift]
      exact buried.lift (fun s => Task.stop language (.evicting s)) _ rfl fun _ _ => id
  | stopAll s =>
    cases s with
    | fresh => exact .go Fleet.Buries.none_ended fun _ => False.elim
    | next todo failures =>
      cases todo with
      | nil => exact .done Fleet.Buries.none_ended
      | cons language todo => exact .go Fleet.Buries.none_ended fun _ => False.elim
    | evicting language s todo failures =>
      exact gone_stopAll (fun i grip => there language i ((if_pos rfl).trans grip)) known

end Task

section rounds
variable {α : Type} {P : Task → Prop} {Q : α → Prop}

/-- The steps of a task keep to some stages, and its outcome is made into something at the last of them. -/
structure Task.Keeps (P : Task → Prop) (finish : Fleet → Outcome → α) (Q : α → Prop) : Prop where
  goes : ∀ {k f t f' t'}, P t → t.step k f = (f', .go t') → P t'
  ends : ∀ {k f t f' r}, P t → t.step k f = (f', .done r) → Q (finish f' r)

namespace Job

/-- A job that is a task at one of some stages, or has something of some kind for a result. -/
inductive State.Within (P : Task → Prop) (Q : α → Prop) : State α → Prop where
  | todo {t : Task} {finish : Fleet → Outcome → α} (at_stage : P t) (keeps : Task.Keeps P finish Q) :
      Within P Q (.todo (.task t finish))
  | waiting {t : Task} {finish : Fleet → Outcome → α} {d : Option Nat} (at_stage : P t)
      (keeps : Task.Keeps P finish Q) : Within P Q (.waiting t finish d)
  | finished {a : α} (ended : Q a) : Within P Q (.finished a)

variable {f : Fleet} {s : State α} {k : Nat}

theorem within_push {stop : Task → Bool} {fuel : Nat} {t : Task} {finish : Fleet → Outcome → α} {moved : Bool}
    (at_stage : P t) (keeps : Task.Keeps P finish Q) :
    (push stop fuel k f t finish moved).state.Within P Q := by
  induction fuel generalizing f t moved with
  | zero => exact .waiting at_stage keeps
  | succ fuel ih =>
    rw [push]
    split
    · next stepped => exact .finished (keeps.ends at_stage stepped)
    · exact .waiting at_stage keeps
    · next stepped =>
      have next := keeps.goes at_stage stepped
      split
      · exact .waiting next keeps
      · exact ih next

theorem within_advance (h : s.Within P Q) : (advance k f s).state.Within P Q := by
  cases h with
  | todo at_stage keeps => exact within_push at_stage keeps
  | waiting at_stage keeps => exact within_push at_stage keeps
  | finished ended => exact .finished ended

theorem within_tarry (h : s.Within P Q) : (tarry k f s).state.Within P Q := by
  cases h with
  | todo at_stage keeps => exact within_push at_stage keeps
  | waiting at_stage keeps => exact within_push at_stage keeps
  | finished ended => exact .finished ended

end Job

namespace Fleet

variable {f : Fleet} {states : List (Job.State α)}

theorem within_round (ticket left : Nat) (f : Fleet) (h : ∀ s ∈ states, s.Within P Q) :
    ∀ s ∈ (round ticket left f states).states, s.Within P Q := by
  induction states generalizing ticket left f with
  | nil => exact h
  | cons s rest ih =>
    intro s' there
    rw [round] at there
    rcases List.mem_cons.mp there with rfl | later
    · have first := h s List.mem_cons_self
      split
      · exact Job.within_tarry first
      · exact Job.within_advance first
    · exact ih _ _ _ (fun s later => h s (List.mem_cons_of_mem _ later)) s' later

theorem within_rounds (fuel : Nat) (f : Fleet) (h : ∀ s ∈ states, s.Within P Q) :
    ∀ s ∈ (rounds fuel f states).2, s.Within P Q := by
  induction fuel generalizing f states with
  | zero => exact h
  | succ fuel ih =>
    have after := within_round 0 stamina f h
    rw [rounds]
    split
    · exact ih _ after
    · split
      · exact after
      · exact ih _ after

/-- The result of a task alone is made of the outcome of its last step. -/
theorem runOne_task {t : Task} {finish : Fleet → Outcome → α} (at_stage : P t) (keeps : Task.Keeps P finish Q)
    {a : α} (result : (f.runOne (.task t finish)).1 = some a) : Q a := by
  have alone : ∀ s ∈ [Job.State.todo (.task t finish)], s.Within P Q := by
    rintro s there
    cases List.mem_singleton.mp there
    exact .todo at_stage keeps
  simp only [runOne, run, List.map_cons, List.map_nil] at result
  have after := within_rounds (100 * ([Job.task t finish].length + 1) *
    (f.slots.length + [Job.task t finish].length + 1)) f alone
  generalize rounds _ f [Job.State.todo (.task t finish)] = ended at result after
  obtain ⟨first, rest, states⟩ : ∃ s rest, ended.2 = s :: rest := by
    cases states : ended.2 with
    | nil =>
      rw [states] at result
      cases result
    | cons s rest => exact ⟨s, rest, rfl⟩
  rw [states] at result after
  have found : first.result? = some a := result
  cases after first List.mem_cons_self with
  | todo => cases found
  | waiting => cases found
  | finished ended =>
    cases found
    exact ended

end Fleet

end rounds

end LanguageHost
