import LanguageHost.Proofs.Fleet.Exits

/-!
The servers that a host tells of. Each was started and nobody has begun to stop it, so its connection is open
unless its output has come to an end by itself. A server that has crashed is told of until it is stopped or
replaced, and a start that does not replace it is refused.
-/
namespace LanguageHost

/-- A start is refused because a server is there. -/
def Error.isRefusal : Error → Bool
  | .alreadyRunning _ => true
  | _ => false

namespace Client

theorem fileUrl_error {p : Path} {e : Error} (h : fileUrl p = .error e) : e.isRefusal = false := by
  unfold fileUrl at h
  split at h
  · cases h
  · cases h
    rfl

theorem folder_error {p : Path} {e : Error} (h : folder p = .error e) : e.isRefusal = false := by
  simp only [folder, bind, Except.bind] at h
  split at h
  · next failed =>
    cases h
    exact fileUrl_error failed
  · cases h

theorem folders_error {ps : List Path} {e : Error} (h : ps.mapM folder = .error e) : e.isRefusal = false := by
  induction ps with
  | nil => cases h
  | cons p ps ih =>
    simp only [List.mapM_cons, bind, Except.bind] at h
    split at h
    · next failed =>
      cases h
      exact folder_error failed
    · split at h
      · next failed =>
        cases h
        exact ih failed
      · cases h

theorem greetingQuery_error {config : ClientConfig} {e : Error} (h : greetingQuery config = .error e) :
    e.isRefusal = false := by
  simp only [greetingQuery, bind, Except.bind] at h
  split at h
  · next failed =>
    cases h
    exact fileUrl_error failed
  · split at h
    · next failed =>
      cases h
      exact folders_error failed
    · cases h

theorem outcome_error {c : Client} {q : Query} {a : Answer} {e : Error} (h : c.outcome q a = .error e) :
    e.isRefusal = false := by
  cases a with
  | response r =>
    simp only [outcome, understand] at h
    split at h
    · cases h
      rfl
    · split at h
      · cases h
      · cases h
        rfl
  | gone =>
    cases h
    rfl
  | late =>
    cases h
    rfl

theorem ask_error {c : Client} {q : Query} {now : Nat} {s : AskStage} {e : Error}
    (h : (c.ask q now s).2 = .done (.error e)) : e.isRefusal = false := by
  simp only [ask] at h
  cases turn : (c.exchange q now s).2 with
  | done a =>
    rw [turn] at h
    exact outcome_error (Turn.done.inj h)
  | wait d =>
    rw [turn] at h
    cases h
  | go s' =>
    rw [turn] at h
    cases h

theorem gone_of_enqueue {c : Client} {o : Outbound} {e : Error} (h : c.enqueue o = .error e) : e = c.gone := by
  unfold enqueue at h
  split at h
  · cases h
  · cases h
    rfl

/-- A first request never fails for a server that is there. -/
theorem greet_error {c : Client} {now : Nat} {s : GreetStage} {e : Error}
    (h : (c.greet now s).2 = .done (.error e)) : e.isRefusal = false := by
  cases s with
  | fresh =>
    simp only [greet] at h
    split at h
    · cases h
    · split at h
      · cases h
      · split at h
        · next failed =>
          cases h
          exact greetingQuery_error failed
        · cases h
  | asking q s =>
    simp only [greet] at h
    split at h
    · next asked =>
      cases h
      exact ask_error (congrArg Prod.snd asked)
    · split at h
      · next told =>
        cases h
        rw [gone_of_enqueue told]
        rfl
      · cases h
    · next turn _ _ asked =>
      cases turn with
      | wait d => cases h
      | go s' => cases h
      | done a =>
        cases h
        exact ask_error (congrArg Prod.snd asked)

end Client

/-- A start fails for a server that is there only where it looks for one. -/
def Task.IsFair : Task → Prop
  | .start _ (.failed _ e) => e.isRefusal = false
  | _ => True

namespace Fleet

variable {f : Fleet} {k : Nat} {r : StartRequest}

/-- The launcher says that a server is there. -/
def LauncherRefuses (f : Fleet) (r : StartRequest) (e : Error) : Prop :=
  ∃ c, f.launchConfig r.language = .ok c ∧
    f.launcher r.language c.binary ⟨r.root, r.folders, c.initOptions, f.timeout⟩ = .error e

theorem launch_error {e : Error} (h : f.launch r = .error e) (refusal : e.isRefusal = true) :
    f.LauncherRefuses r e := by
  simp only [launch, bind, Except.bind] at h
  split at h
  · next failed =>
    cases h
    unfold launchConfig at failed
    split at failed
    · cases failed
      cases refusal
    · split at failed
      · cases failed
      · cases failed
        cases refusal
  · next config found =>
    split at h
    · next failed =>
      cases h
      exact ⟨config, found, failed⟩
    · cases h

/-- Where a start is refused: at a server that is there and is not to be replaced. -/
theorem start_refused {s : StartStage} {e : Error} (fair : (Task.start r s).IsFair)
    (h : (f.start k r s).2 = .done (.error e)) (refusal : e.isRefusal = true) :
    (e = .alreadyRunning r.language ∧ r.policy = .reject ∧ ∃ i, (f.slot r.language).active = some i) ∨
      f.LauncherRefuses r e := by
  cases s with
  | queued =>
    simp only [start] at h
    split at h
    · cases h
    · split at h
      · cases h
      · next i active policy =>
        cases h
        exact .inl ⟨rfl, policy, i, active⟩
      · cases h
  | launching =>
    simp only [start] at h
    split at h
    · next failed =>
      cases h
      exact .inr (launch_error failed refusal)
    · cases h
  | failed i e' =>
    cases h
    cases refusal.symm.trans fair
  | fresh | found | unpublished | listening | published =>
    simp only [start] at h
    try split at h
    all_goals cases h
  | replacing i s | greeting i config s | greeted i config =>
    simp only [start] at h
    split at h
    all_goals cases h

theorem fair_start {s s' : StartStage} (fair : (Task.start r s).IsFair)
    (rest : (f.start k r s).2.rest? s = some s') : (Task.start r s').IsFair := by
  cases s with
  | greeting i config s =>
    simp only [start] at rest
    split at rest
    · next failed =>
      cases rest
      unfold onClient onLink at failed
      split at failed
      · cases failed
        rfl
      · exact Client.greet_error (congrArg Prod.snd failed)
    all_goals
      cases rest
      trivial
  | greeted i config =>
    simp only [start] at rest
    split at rest
    · cases rest
      trivial
    · cases rest
      rfl
  | failed i e => cases rest
  | published i => cases rest
  | fresh | found | listening =>
    cases rest
    trivial
  | unpublished | replacing | launching =>
    simp only [start] at rest
    split at rest
    all_goals cases rest <;> trivial
  | queued =>
    simp only [start] at rest
    split at rest
    · cases rest
      trivial
    · split at rest
      all_goals cases rest <;> trivial

end Fleet

namespace Traffic

variable {s : Traffic}

theorem fair_turned (fair : ∀ k t, s.calls k = some t → t.IsFair) {k : Nat} {t : Task}
    (there : s.calls k = some t) : ∀ j t', (s.turned k t).calls j = some t' → t'.IsFair := by
  intro j t' stands
  by_cases same : j = k
  · subst same
    rw [calls_turned_self] at stands
    have own := fair j t there
    cases t with
    | start r s =>
      simp only [Task.step, Turn.rest?_lift] at stands
      obtain ⟨s', rest, rfl⟩ := Option.map_eq_some_iff.mp stands
      exact Fleet.fair_start own rest
    | stop language s =>
      simp only [Task.step, Turn.rest?_lift] at stands
      obtain ⟨s', -, rfl⟩ := Option.map_eq_some_iff.mp stands
      trivial
    | stopAll s =>
      simp only [Task.step, Turn.rest?_lift] at stands
      obtain ⟨s', -, rfl⟩ := Option.map_eq_some_iff.mp stands
      trivial
    | call i c =>
      simp only [Task.step] at stands
      cases found : s.fleet.links[i]? with
      | none =>
        simp only [Fleet.onLink, found] at stands
        cases stands
      | some l =>
        rw [Fleet.onLink_some found, Turn.rest?_lift] at stands
        obtain ⟨c', -, rfl⟩ := Option.map_eq_some_iff.mp stands
        trivial
  · rw [s.calls_turned_of_ne same] at stands
    exact fair j t' stands

theorem fair_entered (fair : ∀ k t, s.calls k = some t → t.IsFair) {k : Nat} {t : Task} (own : t.IsFair) :
    ∀ j t', Function.update s.calls k (some t) j = some t' → t'.IsFair := by
  intro j t' stands
  by_cases same : j = k
  · subst same
    cases (Function.update_self ..).symm.trans stands
    exact own
  · exact fair j t' ((Function.update_of_ne same ..).symm.trans stands)

theorem fair_of_isFresh {t : Task} (h : t.isFresh = true) : t.IsFair := by
  unfold Task.isFresh at h
  split at h
  · trivial
  · trivial
  · trivial
  · trivial
  · cases h

theorem fair_next (fair : ∀ k t, s.calls k = some t → t.IsFair) (move : Move) :
    ∀ k t, (s.next move).calls k = some t → t.IsFair := by
  cases move with
  | begin t =>
    simp only [next]
    split
    · next fresh => exact fair_entered fair (fair_of_isFresh fresh)
    · exact fair
  | turn k =>
    simp only [next]
    split
    · exact fair
    · next t there => exact fair_turned fair there
  | note k languages =>
    simp only [next]
    split
    · split
      · exact fair_entered fair trivial
      · exact fair
    · exact fair
  | act i a => exact fair
  | pass time => exact fair
  | configure config launcher => exact fair

theorem fair_run (fair : ∀ k t, s.calls k = some t → t.IsFair) (moves : List Move) :
    ∀ k t, (s.run moves).calls k = some t → t.IsFair := by
  induction moves generalizing s with
  | nil => exact fair
  | cons move moves ih => exact ih (fair_next fair move)

namespace Attended

variable {language : String} {i : Nat}

end Attended

/-- A start that has begun asks for the slot. -/
theorem run_start_queued {k : Nat} (unused : s.tickets = k) (r : StartRequest) :
    (s.run [.begin (.start r .fresh), .turn k, .turn k]).calls k = some (.start r .queued) := by
  subst unused
  simp [run, next, Task.isFresh, turned, Task.step, Fleet.start, Turn.lift, Turn.rest?]

end Traffic

end LanguageHost
