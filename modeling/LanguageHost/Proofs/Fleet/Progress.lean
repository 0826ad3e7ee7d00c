import LanguageHost.Proofs.Session.Aftermath
import LanguageHost.Proofs.Session.Shutdown

/-!
The stopping of servers comes to an end: every turn of it is nearer to the end than the one before, or waits
for a time from which on it does not wait, and the stages are finitely many.
-/
namespace LanguageHost

namespace Turn

variable {σ τ α β : Type} {rank : σ → Nat} {s : σ} {again : Nat → Turn σ α} {turn : Turn σ α}

def IsWait : Turn σ α → Prop
  | .wait _ => True
  | _ => False

/-- A turn ends, or goes on nearer to an end, or waits for a time from which on it would not. -/
def Progresses (rank : σ → Nat) (s : σ) (again : Nat → Turn σ α) : Turn σ α → Prop
  | .wait d => ∃ time, d = some time ∧ ∀ now, time ≤ now → ¬ (again now).IsWait
  | .go s' => rank s' < rank s
  | .done _ => True

theorem isWait_lift {wrap : σ → τ} {finish : α → β} : (turn.lift wrap finish).IsWait ↔ turn.IsWait := by
  cases turn with
  | _ => exact Iff.rfl

theorem Progresses.lift {rank' : τ → Nat} {wrap : σ → τ} {finish : α → β} {again' : Nat → Turn τ β}
    (h : turn.Progresses rank s again) (nearer : ∀ s', rank s' < rank s → rank' (wrap s') < rank' (wrap s))
    (later : ∀ now, ¬ (again now).IsWait → ¬ (again' now).IsWait) :
    (turn.lift wrap finish).Progresses rank' (wrap s) again' := by
  cases turn with
  | wait d =>
    obtain ⟨time, same, ends⟩ := h
    exact ⟨time, same, fun now due => later now (ends now due)⟩
  | go s' => exact nearer s' h
  | done a => trivial

end Turn

theorem Client.Asked.progresses {q : Query} {now : Nat} {c c' : Client} {s : AskStage}
    {turn : Turn AskStage Answer} (h : c.Asked q now s c' turn) :
    turn.Progresses AskStage.rank s fun later => (c'.exchange q later s).2 := by
  cases turn with
  | wait d =>
    cases h with
    | waits id deadline listed =>
      refine ⟨deadline, rfl, fun later due => ?_⟩
      simp only [Client.exchange]
      split
      · exact not_false
      · rw [if_neg (not_not_intro listed), if_pos due]
        exact not_false
  | go s' => exact h.rank_lt
  | done a => trivial

/-- How many more steps the end of a session can take. -/
def EndStage.steps : EndStage → Nat
  | .asking s => s.rank + 4
  | s => s.rank

def StopStage.steps : StopStage → Nat
  | .silencing => 11
  | .ending s => s.steps

namespace Link

variable {now : Nat} {l l' : Link}

theorem progresses_asking {s : AskStage} {turn : Turn EndStage (Except Error Unit)}
    (stepped : l.shutDown now (.asking s) = (l', turn)) :
    turn.Progresses EndStage.steps (.asking s) fun later => (l'.shutDown later (.asking s)).2 := by
  have asked := (l.client.exchange_asked .shutdown now s).progresses
  rcases exchanged : l.client.exchange .shutdown now s with ⟨c, turn'⟩
  rw [exchanged] at asked
  simp only [shutDown, Client.ask, exchanged] at stepped
  cases turn' with
  | wait d =>
    cases stepped
    obtain ⟨time, same, ends⟩ := asked
    refine ⟨time, same, fun later due => ?_⟩
    have unwaiting : ¬ (c.exchange .shutdown later s).2.IsWait := ends later due
    simp only [shutDown, Client.ask]
    cases again : (c.exchange .shutdown later s).2 with
    | wait d =>
      rw [again] at unwaiting
      exact absurd trivial unwaiting
    | go s' => exact id
    | done a =>
      simp only [Turn.lift]
      split
      · exact id
      · exact id
      · next other =>
        cases other
      · next other =>
        cases other
  | go s' =>
    cases stepped
    exact Nat.add_lt_add_right asked 4
  | done a =>
    have nearer : 3 < EndStage.steps (.asking s) := Nat.lt_add_left _ (Nat.lt_succ_self 3)
    simp only [Turn.lift] at stepped
    split at stepped
    · cases stepped
      exact nearer
    · cases stepped
      exact nearer
    · next other =>
      cases other
    · next other =>
      cases other

theorem progresses_shutDown {s : EndStage} {turn : Turn EndStage (Except Error Unit)}
    (stepped : l.shutDown now s = (l', turn)) :
    turn.Progresses EndStage.steps s fun later => (l'.shutDown later s).2 := by
  cases s with
  | asking s => exact progresses_asking stepped
  | closing r =>
    simp only [shutDown] at stepped
    split at stepped
    · cases stepped
      exact Nat.lt_succ_self 2
    · cases stepped
      exact Nat.lt_of_sub_eq_succ rfl
  | flushing r deadline =>
    simp only [shutDown] at stepped
    split at stepped
    · cases stepped
      exact Nat.lt_succ_self 1
    · cases stepped
      refine ⟨deadline, rfl, fun later due => ?_⟩
      simp only [shutDown, due, decide_true, Bool.or_true, if_true]
      exact id
  | draining r =>
    simp only [shutDown] at stepped
    split at stepped
    · split at stepped
      · cases stepped
        exact Nat.lt_succ_self 0
      · cases stepped
        trivial
    · cases stepped
      refine ⟨_, rfl, fun later due => ?_⟩
      simp only [shutDown, Option.getD_some, due, decide_true, Bool.or_true, if_true]
      split
      · exact id
      · exact id
  | reaping r deadline =>
    simp only [shutDown] at stepped
    split at stepped
    · cases stepped
      trivial
    · split at stepped
      · cases stepped
        trivial
      · next lives _ =>
        cases stepped
        refine ⟨deadline, rfl, fun later due => ?_⟩
        simp only [shutDown, if_neg lives, if_pos due]
        exact id

theorem progresses_stop {s : StopStage} {turn : Turn StopStage (Except Error Unit)}
    (stepped : l.stop now s = (l', turn)) :
    turn.Progresses StopStage.steps s fun later => (l'.stop later s).2 := by
  cases s with
  | silencing =>
    cases stepped
    exact Nat.lt_succ_self 10
  | ending s =>
    rcases ended : l.shutDown now s with ⟨l', turn'⟩
    simp only [stop, ended] at stepped
    cases stepped
    refine (progresses_shutDown ended).lift (fun _ => id) fun later unwaiting => ?_
    exact Turn.isWait_lift.not.mpr unwaiting

end Link

namespace Fleet

variable {f f' : Fleet} {k : Nat} {language : String}

def EvictStage.steps : EvictStage → Nat
  | .found => 14
  | .queued => 13
  | .taken _ => 12
  | .ending _ s => s.steps

/-- How many more steps the stopping of every server can take, once the languages are noted. -/
def QuitAllStage.steps : QuitAllStage → Nat
  | .fresh => 0
  | .next todo _ => 16 * todo.length
  | .evicting _ s todo _ => 16 * todo.length + (s.steps + 1)

/-- The fleet at another time. -/
def atTime (f : Fleet) (time : Nat) : Fleet := { f with now := time }

theorem atTime_now (time : Nat) : (f.atTime time).now = time := rfl

theorem progresses_ending {i : Nat} {s : StopStage} {turn : Turn StopStage (Except Error Unit)}
    (stepped : f.onLink i (fun l => l.stop f.now s) (.done (.ok ())) = (f', turn)) :
    turn.Progresses StopStage.steps s
      fun later => ((f'.atTime later).onLink i (fun l => l.stop later s) (.done (.ok ()))).2 := by
  cases there : f.links[i]? with
  | none =>
    simp only [onLink, there] at stepped
    cases stepped
    trivial
  | some l =>
    rw [onLink_some there] at stepped
    cases stepped
    have placed (later : Nat) :
        ((f.setLink i (l.stop f.now s).1).atTime later).links[i]? = some (l.stop f.now s).1 :=
      (links_setLink there i).trans (if_pos rfl)
    simp only [onLink_some (placed _)]
    exact Link.progresses_stop rfl

theorem progresses_evict {s : EvictStage} {turn : Turn EvictStage (Option (Except Error Unit))}
    (stepped : f.evict k language s = (f', turn)) (held : s = .queued → f.holds language k = true) :
    turn.Progresses EvictStage.steps s fun later => ((f'.atTime later).evict k language s).2 := by
  cases s with
  | found =>
    cases stepped
    exact Nat.lt_succ_self 13
  | queued =>
    simp only [evict, held rfl, Bool.not_true, Bool.false_eq_true, if_false] at stepped
    split at stepped
    · cases stepped
      trivial
    · cases stepped
      exact Nat.lt_succ_self 12
  | taken i =>
    cases stepped
    exact Nat.lt_succ_self 11
  | ending i s =>
    rcases stopped : f.onLink i (fun l => l.stop f.now s) (.done (.ok ())) with ⟨f₁, turn'⟩
    have progresses := progresses_ending stopped
    simp only [evict, stopped] at stepped
    cases turn' with
    | wait d =>
      cases stepped
      obtain ⟨time, same, ends⟩ := progresses
      refine ⟨time, same, fun later due => ?_⟩
      have unwaiting := ends later due
      rcases again : (f'.atTime later).onLink i (fun l => l.stop later s) (.done (.ok ())) with ⟨f₂, turn₂⟩
      simp only [again] at unwaiting
      simp only [evict, atTime_now, again]
      cases turn₂ with
      | wait d => exact absurd trivial unwaiting
      | go s' => exact not_false
      | done r => exact not_false
    | go s' =>
      cases stepped
      exact progresses
    | done r =>
      cases stepped
      trivial

theorem progresses_stopAll {s : QuitAllStage} {turn : Turn QuitAllStage (Except ShutdownErrors Unit)}
    (stepped : f.stopAll k s = (f', turn)) (noted : s ≠ .fresh)
    (held : ∀ language todo failures, s = .evicting language .queued todo failures →
      f.holds language k = true) :
    turn.Progresses QuitAllStage.steps s fun later => ((f'.atTime later).stopAll k s).2 := by
  cases s with
  | fresh => exact absurd rfl noted
  | next todo failures =>
    cases todo with
    | nil =>
      cases stepped
      trivial
    | cons language todo =>
      cases stepped
      simp only [Turn.Progresses, QuitAllStage.steps, EvictStage.steps, List.length_cons]
      omega
  | evicting language s todo failures =>
    rcases evicted : f.evict k language s with ⟨f₁, turn'⟩
    have progresses := progresses_evict evicted fun same => held language todo failures (same ▸ rfl)
    simp only [stopAll, evicted] at stepped
    cases turn' with
    | wait d =>
      cases stepped
      obtain ⟨time, same, ends⟩ := progresses
      refine ⟨time, same, fun later due => ?_⟩
      have unwaiting := ends later due
      rcases again : (f'.atTime later).evict k language s with ⟨f₂, turn₂⟩
      simp only [again] at unwaiting
      simp only [stopAll, again]
      cases turn₂ with
      | wait d => exact absurd trivial unwaiting
      | go s' => exact not_false
      | done r => exact not_false
    | go s' =>
      cases stepped
      exact Nat.add_lt_add_left (Nat.succ_lt_succ progresses) _
    | done r =>
      cases stepped
      exact Nat.lt_add_of_pos_right (Nat.succ_pos _)

end Fleet

end LanguageHost
