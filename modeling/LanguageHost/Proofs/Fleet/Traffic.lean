import LanguageHost.Proofs.Fleet.Tasks

/-!
Runs of a fleet. Starts, stops and all other calls begin at any time and take their steps in any order,
between whatever else happens to the links, and at most one server of a language has not been ended.
-/
namespace LanguageHost

namespace Fleet

/-- Something happens on a link that is no call's. -/
def act (f : Fleet) (i : Nat) (a : Link.Act) : Fleet :=
  let (f, events) := f.onLink i (fun l =>
    let (l', reports) := l.act a
    (l', reports.map fun r => (⟨l.client.language, r⟩ : LanguageEvent))) []
  { f with events := f.events ++ events }

theorem works_act (f : Fleet) (i : Nat) (a : Link.Act) :
    (f.act i a).slots = f.slots ∧ f.Follows (f.act i a) := by
  rcases stepped : f.onLink i (fun l =>
    ((l.act a).1, (l.act a).2.map fun r => (⟨l.client.language, r⟩ : LanguageEvent))) [] with ⟨f', events⟩
  obtain ⟨slots, follows⟩ := works_onLink stepped fun l => (l.stirs_act a).continues
  simp only [act, stepped]
  exact ⟨slots, follows.trans (.of_links rfl)⟩

end Fleet

/-- A fleet and the calls that are under way. -/
structure Traffic where
  fleet : Fleet
  /-- the calls that have begun and not ended -/
  calls : Nat → Option Task
  /-- the ticket of the next call -/
  tickets : Nat
  /-- the links of the servers that starts and stops have shut down or terminated -/
  ended : List Nat

namespace Traffic

/-- A host that has just started. -/
def start (config : String → Option LaunchConfig) (timeout : Nat) (launcher : Launcher) : Traffic :=
  ⟨.ofConfig config timeout launcher, fun _ => none, 0, []⟩

inductive Move where
  | begin (t : Task)
  /-- a call takes a step -/
  | turn (k : Nat)
  /-- a call that stops all servers notes the languages that have a slot, in any order -/
  | note (k : Nat) (languages : List String)
  | act (i : Nat) (a : Link.Act)
  /-- time passes -/
  | pass (time : Nat)
  /-- the configuration changes, and what comes of launching -/
  | configure (config : String → Option LaunchConfig) (launcher : Launcher)

def turned (s : Traffic) (k : Nat) (t : Task) : Traffic :=
  { s with
    fleet := (t.step k s.fleet).1
    calls := Function.update s.calls k ((t.step k s.fleet).2.rest? t)
    ended := (t.ended? (t.step k s.fleet).2).toList ++ s.ended }

/-- A move that cannot be made changes nothing. -/
def next (s : Traffic) : Move → Traffic
  | .begin t =>
    if t.isFresh then { s with calls := Function.update s.calls s.tickets (some t), tickets := s.tickets + 1 }
    else s
  | .turn k =>
    match s.calls k with
    | none => s
    | some t => s.turned k t
  | .note k languages =>
    match s.calls k with
    | some (.stopAll .fresh) =>
      if languages.Perm s.fleet.slots.keys then
        { s with calls := Function.update s.calls k (some (.stopAll (.next languages []))) }
      else s
    | _ => s
  | .act i a => { s with fleet := s.fleet.act i a }
  | .pass time => { s with fleet := { s.fleet with now := max s.fleet.now time } }
  | .configure config launcher =>
    { s with fleet := { s.fleet with config := config, launcher := launcher } }

def run (s : Traffic) (moves : List Move) : Traffic := moves.foldl next s

/-- What a call has done with the slot of a language. -/
def grips (s : Traffic) (language : String) (k : Nat) : Option Grip := (s.calls k).bind (Task.grip language)

/-- The server of a link was launched for a language, and was neither shut down nor terminated. -/
def IsLive (s : Traffic) (language : String) (i : Nat) : Prop :=
  s.fleet.Serves language i ∧ i ∉ s.ended

/-- No call holds the slot of a language: whoever is in its queue has only waited. -/
def IsFree (s : Traffic) (language : String) : Prop := ∀ k g, s.grips language k = some g → g = .waiting

/-- What is known of every state of a run. -/
structure Sound (s : Traffic) : Prop where
  begun : ∀ k, s.tickets ≤ k → s.calls k = none
  slots : ∀ language,
    (s.fleet.slot language).Orderly (s.grips language) (s.fleet.Serves language) (· ∈ s.ended)
  reaped : ∀ k t i, s.calls k = some t → t.Reaps i → s.fleet.IsGone i
  gone : ∀ i ∈ s.ended, s.fleet.IsGone i

theorem sound_start (config : String → Option LaunchConfig) (timeout : Nat) (launcher : Launcher) :
    (start config timeout launcher).Sound := by
  constructor
  · exact fun _ _ => rfl
  · intro language
    have none_serves : (start config timeout launcher).fleet.Serves language = fun _ => False := by
      funext i
      simp [start, Fleet.ofConfig, Fleet.Serves]
    rw [none_serves]
    exact .empty
  · intro k t i there
    cases there
  · intro i listed
    cases listed

theorem grips_update (s : Traffic) (language : String) (k : Nat) (t? : Option Task) :
    (fun j => (Function.update s.calls k t? j).bind (Task.grip language)) =
      Function.update (s.grips language) k (t?.bind (Task.grip language)) := by
  funext j
  by_cases same : j = k
  · subst same
    simp
  · simp [same, grips]

namespace Sound

variable {s : Traffic} {k : Nat} {t : Task}

/-- A call takes a step. -/
theorem turned (h : s.Sound) (there : s.calls k = some t) : (s.turned k t).Sound := by
  obtain ⟨language, deed, works, apart, ended⟩ := t.works (f := s.fleet) (k := k)
  have own (other : String) : s.grips other k = t.grip other := by rw [grips, there]; rfl
  have carried (other : String) (i : Nat) (grip : t.grip other = some (.carrying i)) :
      ∃ l, s.fleet.links[i]? = some l := by
    obtain ⟨l, found, -⟩ := (h.slots other).owned i (.inr ⟨k, _, (own other).trans grip, rfl⟩)
    exact ⟨l, found⟩
  obtain ⟨buried, rest⟩ := t.gone (k := k) carried fun i => h.reaped k t i there
  have later (i : Nat) (before : i ∈ s.ended) : i ∈ (s.turned k t).ended := List.mem_append_right _ before
  constructor
  · intro j unused
    have other : j ≠ k := by
      rintro rfl
      rw [h.begun j unused] at there
      cases there
    exact (Function.update_of_ne other ..).trans (h.begun j unused)
  · intro other
    have gripped : (s.turned k t).grips other = Function.update (s.grips other) k
        (((t.step k s.fleet).2.rest? t).bind (Task.grip other)) := s.grips_update other k _
    rw [gripped]
    by_cases same : other = language
    · -- the slot that the call works on
      subst same
      refine ((h.slots other).move (own other) works.move).mono (fun i => ?_) fun i gone => ?_
      · exact (works.serves other i).trans (by simp)
      · rcases gone with before | now
        · exact later i before
        · refine List.mem_append_left _ (Option.mem_toList.mpr ?_)
          rw [← ended, now]
          rfl
    · -- in the other slots the call has no grip, neither before nor after
      obtain ⟨before, after⟩ := apart other same
      have slot : (s.turned k t).fleet.slot other = s.fleet.slot other := works.others other same
      rw [after, ← before, ← own other, Function.update_eq_self, slot]
      exact (h.slots other).mono (fun i => (works.serves other i).trans (by simp [same])) later
  · intro j t' i stands reaping
    by_cases same : j = k
    · subst same
      rw [show (s.turned j t).calls j = _ from Function.update_self ..] at stands
      exact rest i t' stands reaping
    · rw [show (s.turned k t).calls j = _ from Function.update_of_ne same ..] at stands
      exact works.kept i (h.reaped j t' i stands reaping)
  · intro i listed
    rcases List.mem_append.mp listed with now | before
    · exact buried i (Option.mem_toList.mp now)
    · exact works.kept i (h.gone i before)

/-- A call that has nothing to do with any slot yet comes in place of another such call. -/
theorem entered (h : s.Sound) {tickets : Nat} (known : s.tickets ≤ tickets) (named : k < tickets)
    (before : ∀ language, s.grips language k = none) (after : ∀ language, t.grip language = none)
    (quiet : ∀ i, ¬ t.Reaps i) :
    ({ s with calls := Function.update s.calls k (some t), tickets := tickets } : Traffic).Sound := by
  constructor
  · intro j unused
    have other : j ≠ k := by
      rintro rfl
      exact absurd unused (Nat.not_le.mpr named)
    exact (Function.update_of_ne other ..).trans (h.begun j (Nat.le_trans known unused))
  · intro language
    have gripped : ({ s with calls := Function.update s.calls k (some t), tickets := tickets } :
        Traffic).grips language = s.grips language := by
      refine (s.grips_update language k (some t)).trans ?_
      rw [Option.bind_some, after, ← before language, Function.update_eq_self]
    rw [gripped]
    exact h.slots language
  · intro j t' i stands reaping
    by_cases same : j = k
    · subst same
      cases (Function.update_self ..).symm.trans stands
      exact absurd reaping (quiet i)
    · exact h.reaped j t' i ((Function.update_of_ne same ..).symm.trans stands) reaping
  · exact h.gone

/-- Something happens that is no concern of the slots. -/
theorem followed (h : s.Sound) {f : Fleet} (slots : f.slots = s.fleet.slots) (follows : s.fleet.Follows f) :
    ({ s with fleet := f } : Traffic).Sound := by
  constructor
  · exact h.begun
  · intro language
    have slot : f.slot language = s.fleet.slot language := by rw [Fleet.slot, slots]; rfl
    exact slot ▸ (h.slots language).mono (fun i => follows.serves language) fun _ => id
  · exact fun j t i there reaping => follows.isGone (h.reaped j t i there reaping)
  · exact fun i listed => follows.isGone (h.gone i listed)

theorem next (h : s.Sound) (move : Move) : (s.next move).Sound := by
  cases move with
  | begin t =>
    simp only [Traffic.next]
    split
    · next fresh =>
      refine h.entered (Nat.le_succ _) (Nat.lt_succ_self _) (fun language => ?_)
        (Task.grip_of_isFresh fresh) (Task.reaps_of_isFresh fresh)
      rw [grips, h.begun s.tickets (Nat.le_refl _)]
      rfl
    · exact h
  | turn k =>
    simp only [Traffic.next]
    split
    · exact h
    · next t there => exact h.turned there
  | note k languages =>
    simp only [Traffic.next]
    split
    · next there =>
      split
      · refine h.entered (Nat.le_refl _) ?_ (fun language => ?_) (fun _ => rfl) fun _ => id
        · by_contra unused
          rw [h.begun k (Nat.not_lt.mp unused)] at there
          cases there
        · rw [grips, there]
          rfl
      · exact h
    · exact h
  | act i a =>
    obtain ⟨slots, follows⟩ := s.fleet.works_act i a
    exact h.followed slots follows
  | pass time => exact h.followed rfl (.of_links rfl)
  | configure config launcher => exact h.followed rfl (.of_links rfl)

theorem run (h : s.Sound) (moves : List Move) : (s.run moves).Sound := by
  induction moves generalizing s with
  | nil => exact h
  | cons move moves ih => exact ih (h.next move)

end Sound

/-- Whoever has done more than wait holds the slot. -/
theorem Sound.isFree {s : Traffic} (h : s.Sound) {language : String}
    (unheld : ∀ k, s.fleet.holds language k = false) : s.IsFree language := by
  intro k g own
  by_contra acts
  have first := (h.slots language).first k g own acts
  have held := unheld k
  simp [Fleet.holds, first] at held

/-- However starts, stops and all else are interleaved: of the servers that were launched for a language at
most one was neither shut down nor terminated, the others are gone, and as long as no call holds the slot
of the language, others are told of the server that is the started one, and of no other. -/
theorem at_most_one_server (config : String → Option LaunchConfig) (timeout : Nat) (launcher : Launcher)
    (moves : List Move) (language : String) :
    let s := (start config timeout launcher).run moves
    (∀ i j, s.IsLive language i → s.IsLive language j → i = j) ∧
      (∀ i ∈ s.ended, s.fleet.IsGone i) ∧
      (s.IsFree language →
        (s.fleet.slot language).running.map Prod.fst = (s.fleet.slot language).active) := by
  intro s
  have sound : s.Sound := (sound_start config timeout launcher).run moves
  have orderly := sound.slots language
  refine ⟨fun i j live live' => ?_, sound.gone, orderly.settled⟩
  exact orderly.unique live.1 live.2 live'.1 live'.2

/-- Two starts for one language; the server of the first one never answers. -/
def unanswered : Traffic :=
  let r : StartRequest := ⟨"rust", ⟨"/"⟩, [], .reject⟩
  let launch : LaunchConfig := ⟨⟨⟨"fake"⟩, [], []⟩, true, none, none⟩
  (start (fun _ => some launch) 9 fun _ _ _ => .ok ⟨.ofScript .empty, none⟩).run <|
    [.begin (.start r .fresh), .begin (.start r .fresh)] ++ List.replicate 9 (.turn 0) ++
    List.replicate 3 (.turn 1) ++ [.pass 9] ++ List.replicate 4 (.turn 0) ++ List.replicate 2 (.turn 1)

example : unanswered.ended = [0] ∧ unanswered.fleet.links.length = 2 ∧
    (unanswered.fleet.slot "rust").queue = [1] := by
  decide +kernel

end Traffic

end LanguageHost
