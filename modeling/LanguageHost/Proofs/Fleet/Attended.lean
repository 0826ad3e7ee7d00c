import LanguageHost.Proofs.Fleet.Attending

/-!
The listening of each link, throughout a run. A server that a slot tells of was started, its listening has not
been cancelled, and only the end of its output has closed its connection.
-/
namespace LanguageHost

namespace ClientCall

/-- Everything but the end of a session. -/
def isOrdinary : ClientCall → Bool
  | .shutDown _ => false
  | _ => true

variable {now : Nat} {l : Link}

theorem goes_step {call : ClientCall} (ordinary : call.isOrdinary = true) :
    l.Goes (call.step now l).1 := by
  have continues := (call.continues_step now l).client
  cases call with
  | ask q s => exact .of_client continues (.of_exchange q now l.client s)
  | lookUp q s => exact .of_client continues (.of_lookUp q now l.client s)
  | greet s => exact .of_client continues (.of_greet now l.client s)
  | shutDown s => cases ordinary

theorem ordinary_step {call call' : ClientCall} (ordinary : call.isOrdinary = true)
    (rest : (call.step now l).2.rest? call = some call') : call'.isOrdinary = true := by
  cases call with
  | ask q s =>
    simp only [step, Link.onClient, Turn.rest?_lift] at rest
    obtain ⟨s, -, rfl⟩ := Option.map_eq_some_iff.mp rest
    rfl
  | lookUp q s =>
    simp only [step, Link.onClient, Turn.rest?_lift] at rest
    obtain ⟨s, -, rfl⟩ := Option.map_eq_some_iff.mp rest
    rfl
  | greet s =>
    simp only [step, Link.onClient, Turn.rest?_lift] at rest
    obtain ⟨s, -, rfl⟩ := Option.map_eq_some_iff.mp rest
    rfl
  | shutDown s => cases ordinary

end ClientCall

namespace Fleet.Tends

theorem mono {f f' : Fleet} {held held' : Nat → Prop} (h : f.Tends f' held) (wider : ∀ i, held i → held' i) :
    f.Tends f' held' := by
  refine ⟨fun i l there => ?_, h.tended, h.events⟩
  obtain ⟨l', there', onward, course⟩ := h.forward i l there
  exact ⟨l', there', onward, course.imp_left (wider i)⟩

end Fleet.Tends

namespace Task

/-- What a call knows of the link that it works on. -/
def standing : Task → Option (Nat × Link.Standing)
  | .start _ s => s.standing
  | .stop _ (.evicting s) => s.standing
  | .stopAll (.evicting _ s _ _) => s.standing
  | _ => none

/-- Servers are shut down by stops and replacements only. -/
def isOrdinary : Task → Bool
  | .call _ c => c.isOrdinary
  | _ => true

def Carries (t : Task) (i : Nat) : Prop := ∃ language, t.grip language = some (.carrying i)

theorem standing_of_isFresh {t : Task} (h : t.isFresh = true) : t.standing = none := by
  unfold isFresh at h
  split at h
  · rfl
  · rfl
  · rfl
  · rfl
  · cases h

/-- What a call knows of a link it knows because it has the link in its hands. -/
theorem grip_of_standing {t : Task} {i : Nat} {st : Link.Standing} (h : t.standing = some (i, st)) :
    ∃ language g, t.grip language = some g ∧ g.link? = some i := by
  cases t with
  | call j c => cases h
  | start r s =>
    refine ⟨r.language, ?_⟩
    simp only [grip, if_true]
    cases s with
    | fresh | found | queued | unpublished | launching => cases h
    | replacing | greeting | failed | greeted | listening | published =>
      cases h
      exact ⟨_, rfl, rfl⟩
  | stop language s =>
    refine ⟨language, ?_⟩
    cases s with
    | fresh => cases h
    | evicting s =>
      simp only [grip, if_true]
      cases s with
      | found | queued => cases h
      | taken | ending =>
        cases h
        exact ⟨_, rfl, rfl⟩
  | stopAll s =>
    cases s with
    | fresh | next => cases h
    | evicting language s todo failures =>
      refine ⟨language, ?_⟩
      simp only [grip, if_true]
      cases s with
      | found | queued => cases h
      | taken | ending =>
        cases h
        exact ⟨_, rfl, rfl⟩

/-- Whoever presents a server knows that it is listened to. -/
theorem standing_of_presenting {t : Task} {language : String} {i : Nat}
    (h : t.grip language = some (.presenting i)) : t.standing = some (i, .heard) := by
  cases t with
  | call j c => cases h
  | start r s =>
    simp only [grip] at h
    split at h
    · cases s with
      | published j =>
        cases h
        rfl
      | _ => cases h
    · cases h
  | stop other s =>
    cases s with
    | fresh => cases h
    | evicting s =>
      simp only [grip] at h
      split at h
      · cases s with
        | _ => cases h
      · cases h
  | stopAll s =>
    cases s with
    | fresh | next => cases h
    | evicting other s todo failures =>
      simp only [grip] at h
      split at h
      · cases s with
        | _ => cases h
      · cases h

variable {f : Fleet}

/-- What a step of a call does to the links, and what the call knows afterwards. -/
structure Attends (f : Fleet) (k : Nat) (t : Task) : Prop where
  tends : f.Tends (t.step k f).1 t.Carries
  knows : (t.step k f).1.Knows (((t.step k f).2.rest? t).bind standing)
  ordinary : ∀ t', (t.step k f).2.rest? t = some t' → t'.isOrdinary = true

theorem attends_call {k i : Nat} {c : ClientCall} (h : f.Tended) (ordinary : c.isOrdinary = true) :
    (Task.call i c).Attends f k := by
  have tends : f.Tends ((Task.call i c).step k f).1 (Task.call i c).Carries :=
    .of_goes h fun l => ClientCall.goes_step ordinary
  have rest (t' : Task) (after : ((Task.call i c).step k f).2.rest? (.call i c) = some t') :
      ∃ c', t' = .call i c' ∧ c'.isOrdinary = true := by
    simp only [step] at after
    cases there : f.links[i]? with
    | none =>
      simp only [Fleet.onLink, there] at after
      cases after
    | some l =>
      rw [Fleet.onLink_some there, Turn.rest?_lift] at after
      obtain ⟨c', stands, rfl⟩ := Option.map_eq_some_iff.mp after
      exact ⟨c', rfl, ClientCall.ordinary_step ordinary stands⟩
  refine ⟨tends, fun j st known => ?_, fun t' after => ?_⟩
  · obtain ⟨t', after, standing⟩ := Option.bind_eq_some_iff.mp known
    obtain ⟨c', rfl, -⟩ := rest t' after
    cases standing
  · obtain ⟨c', rfl, ordinary'⟩ := rest t' after
    exact ordinary'

theorem attends_start {k : Nat} {r : StartRequest} {s : Fleet.StartStage} (h : f.Tended)
    (known : f.Knows s.standing) (active : ∀ i, (f.slot r.language).active = some i → f.Stands i .heard) :
    (Task.start r s).Attends f k := by
  obtain ⟨tends, knows⟩ := Fleet.attends_start k r h known active
  refine ⟨tends.mono fun i carries => ⟨r.language, (if_pos rfl).trans carries⟩, ?_, fun t' after => ?_⟩
  · simp only [step, Turn.rest?_lift, Option.bind_map]
    exact knows
  · simp only [step, Turn.rest?_lift] at after
    obtain ⟨s', -, rfl⟩ := Option.map_eq_some_iff.mp after
    rfl

theorem attends_stop {k : Nat} {language : String} {s : Fleet.QuitStage} (h : f.Tended)
    (known : f.Knows (Task.stop language s).standing)
    (active : ∀ i, (f.slot language).active = some i → f.Stands i .heard) :
    (Task.stop language s).Attends f k := by
  have ordinary (t' : Task)
      (after : ((Task.stop language s).step k f).2.rest? (.stop language s) = some t') :
      t'.isOrdinary = true := by
    simp only [step, Turn.rest?_lift] at after
    obtain ⟨s', -, rfl⟩ := Option.map_eq_some_iff.mp after
    rfl
  cases s with
  | fresh =>
    refine ⟨?_, ?_, ordinary⟩
    · simp only [step, Fleet.stop]
      split
      · exact .refl h
      · exact .refl h
    · simp only [step, Fleet.stop]
      split
      · exact .none
      · exact .none
  | evicting s =>
    obtain ⟨tends, knows⟩ := Fleet.attends_evict k language h known active
    refine ⟨tends.mono fun i carries => ⟨language, (if_pos rfl).trans carries⟩, ?_, ordinary⟩
    simp only [step, Fleet.stop, Turn.rest?_lift, Option.bind_map]
    exact knows

theorem attends_stopAll {k : Nat} {s : Fleet.QuitAllStage} (h : f.Tended)
    (known : f.Knows (Task.stopAll s).standing)
    (active : ∀ language i, (f.slot language).active = some i → f.Stands i .heard) :
    (Task.stopAll s).Attends f k := by
  have ordinary (t' : Task) (after : ((Task.stopAll s).step k f).2.rest? (.stopAll s) = some t') :
      t'.isOrdinary = true := by
    simp only [step, Turn.rest?_lift] at after
    obtain ⟨s', -, rfl⟩ := Option.map_eq_some_iff.mp after
    rfl
  cases s with
  | fresh => exact ⟨.refl h, .none, ordinary⟩
  | next todo failures =>
    cases todo with
    | nil => exact ⟨.refl h, .none, ordinary⟩
    | cons language todo => exact ⟨.refl h, .none, ordinary⟩
  | evicting language s todo failures =>
    obtain ⟨tends, knows⟩ := Fleet.attends_evict k language h known (active language)
    have tends : f.Tends (f.evict k language s).1 (Task.stopAll (.evicting language s todo failures)).Carries :=
      tends.mono fun i carries => ⟨language, (if_pos rfl).trans carries⟩
    refine ⟨?_, ?_, ordinary⟩
    · simp only [step, Fleet.stopAll]
      split
      all_goals
        next stepped =>
        rw [stepped] at tends
        exact tends
    · simp only [step, Fleet.stopAll]
      split
      · exact .none
      all_goals
        next stepped =>
        rw [stepped] at knows
        exact knows

theorem attends (k : Nat) {t : Task} (h : f.Tended) (ordinary : t.isOrdinary = true)
    (known : f.Knows t.standing)
    (active : ∀ language i, (f.slot language).active = some i → f.Stands i .heard) : t.Attends f k := by
  cases t with
  | call i c => exact attends_call h ordinary
  | start r s => exact attends_start h known (active r.language)
  | stop language s => exact attends_stop h known (active language)
  | stopAll s => exact attends_stopAll h known active

end Task

/-! Slots. -/

namespace Slot.Move

variable {s s' : Slot} {k i : Nat} {g? g?' : Option Grip} {deed : Deed}

/-- Only the server that a call presents becomes the active one. -/
theorem active (h : s.Move k g? s' g?' deed) (there : s'.active = some i) :
    s.active = some i ∨ g? = some (.presenting i) := by
  cases h with
  | takes | removes => cases there
  | appoints j =>
    cases there
    exact .inr rfl
  | _ => exact .inl there

/-- Only the server that a call presents is published. -/
theorem running (h : s.Move k g? s' g?' deed) (there : s'.running.map Prod.fst = some i) :
    s.running.map Prod.fst = some i ∨ g?' = some (.presenting i) := by
  cases h with
  | withdraws | hides => cases there
  | publishes j config =>
    cases there
    exact .inr rfl
  | _ => exact .inl there

end Slot.Move

/-! Runs. -/

namespace Fleet

/-- What happens besides calls leaves the slots alone, and every link goes on. -/
theorem tends_act {f : Fleet} (h : f.Tended) (i : Nat) {a : Link.Act} (ordinary : a.isOrdinary = true) :
    ∃ f', f.Tends f' (fun _ => False) ∧ (f.act i a).links = f'.links ∧ (f.act i a).slots = f.slots := by
  let step (l : Link) : Link × List LanguageEvent :=
    ((l.act a).1, (l.act a).2.map fun r => ⟨l.client.language, r⟩)
  have tends : f.Tends (f.onLink i step []).1 (fun _ => False) := .of_goes h fun l => l.goes_act ordinary
  exact ⟨_, tends, rfl, (f.works_act i a).1⟩

end Fleet

namespace Traffic

theorem calls_turned_self (s : Traffic) (k : Nat) (t : Task) :
    (s.turned k t).calls k = (t.step k s.fleet).2.rest? t := Function.update_self ..

theorem calls_turned_of_ne (s : Traffic) {j k : Nat} (other : j ≠ k) (t : Task) :
    (s.turned k t).calls j = s.calls j := Function.update_of_ne other ..

namespace Move

/-- Starts and stops are the only ones to begin and end the listening and to drop connections. -/
def isOrdinary : Move → Bool
  | .begin t => t.isOrdinary
  | .act _ a => a.isOrdinary
  | _ => true

end Move

theorem grips_of_call {s : Traffic} {k : Nat} {t : Task} (there : s.calls k = some t) (language : String) :
    s.grips language k = t.grip language := by
  rw [grips, there]
  rfl

/-- Two calls never have one server in their hands. -/
theorem Sound.sole {s : Traffic} (h : s.Sound) {k k' i : Nat} {language language' : String} {g g' : Grip}
    (own : s.grips language k = some g) (link : g.link? = some i)
    (own' : s.grips language' k' = some g') (link' : g'.link? = some i) : k = k' := by
  obtain ⟨l, there, serves⟩ := (h.slots language).owned i (.inr ⟨k, g, own, link⟩)
  obtain ⟨l', there', serves'⟩ := (h.slots language').owned i (.inr ⟨k', g', own', link'⟩)
  cases there.symm.trans there'
  obtain rfl : language = language' := serves.symm.trans serves'
  have first := (h.slots language).first k g own (Slot.Orderly.ne_waiting link)
  have first' := (h.slots language).first k' g' own' (Slot.Orderly.ne_waiting link')
  exact Option.some.inj (first.symm.trans first')

/-- A server that is being stopped, or is not yet ready, is one that no slot tells of. -/
theorem Sound.untold {s : Traffic} (h : s.Sound) {k i : Nat} {language language' : String}
    (own : s.grips language k = some (.carrying i)) (serves' : s.fleet.Serves language' i) :
    (s.fleet.slot language').active = none ∧ (s.fleet.slot language').running = none := by
  obtain ⟨l, there, serves⟩ := (h.slots language).owned i (.inr ⟨k, _, own, rfl⟩)
  obtain ⟨l', there', serves'⟩ := serves'
  cases there.symm.trans there'
  obtain rfl : language = language' := serves.symm.trans serves'
  exact (h.slots language).suits k _ own nofun

/-- What is known of the listening in every state of a run. -/
structure Attended (s : Traffic) : Prop where
  ordinary : ∀ k t, s.calls k = some t → t.isOrdinary = true
  tended : s.fleet.Tended
  knows : ∀ k t, s.calls k = some t → s.fleet.Knows t.standing
  active : ∀ language i, (s.fleet.slot language).active = some i → s.fleet.Stands i .heard
  running : ∀ language i, (s.fleet.slot language).running.map Prod.fst = some i →
    s.fleet.Serves language i ∧ s.fleet.Stands i .heard

theorem attended_start (config : String → Option LaunchConfig) (timeout : Nat) (launcher : Launcher) :
    (start config timeout launcher).Attended := by
  have empty (language : String) : (start config timeout launcher).fleet.slot language = .empty := rfl
  constructor
  · intro k t there
    cases there
  · refine ⟨fun i l there => ?_, List.Pairwise.nil⟩
    cases there
  · intro k t there
    cases there
  · intro language i active
    rw [empty] at active
    cases active
  · intro language i running
    rw [empty] at running
    cases running

namespace Attended

variable {s : Traffic} {k : Nat} {t : Task}

theorem attends (h : s.Attended) (there : s.calls k = some t) : t.Attends s.fleet k :=
  t.attends k h.tended (h.ordinary k t there) (h.knows k t there) h.active

section turn
variable (h : s.Attended) (sound : s.Sound) (there : s.calls k = some t)
include h sound there

/-- What another call has in its hands the one that takes a step does not carry. -/
theorem knows_turned {j : Nat} {t' : Task} (stands : (s.turned k t).calls j = some t') :
    (s.turned k t).fleet.Knows t'.standing := by
  obtain ⟨tends, knows, -⟩ := h.attends there
  by_cases same : j = k
  · subst same
    intro i st standing
    refine knows i st ?_
    rw [← calls_turned_self, stands]
    exact standing
  · have before : s.calls j = some t' := (s.calls_turned_of_ne same t).symm.trans stands
    intro i st standing
    obtain ⟨other, g, grip, link⟩ := Task.grip_of_standing standing
    have gripped : s.grips other j = some g := by
      rw [grips, before]
      exact grip
    refine tends.stands (h.knows j t' before i st standing) ?_
    rintro ⟨language, carried⟩
    exact same (sound.sole gripped link ((grips_of_call there language).trans carried) rfl)

/-- No slot tells of a server that the call carries, and of one that it presents only its own slot may. -/
theorem active_turned {other : String} {i : Nat}
    (active : ((s.turned k t).fleet.slot other).active = some i) :
    (s.turned k t).fleet.Stands i .heard := by
  obtain ⟨tends, -, -⟩ := h.attends there
  obtain ⟨language, deed, works, -, -⟩ := t.works (f := s.fleet) (k := k)
  have own := grips_of_call there
  have kept (before : (s.fleet.slot other).active = some i) : (s.turned k t).fleet.Stands i .heard := by
    refine tends.stands (h.active other i before) ?_
    rintro ⟨language', carried⟩
    have serves := (sound.slots other).owned i (.inl before)
    cases before.symm.trans (sound.untold ((own language').trans carried) serves).1
  by_cases same : other = language
  · subst same
    rcases works.move.active active with before | presenting
    · exact kept before
    · refine tends.stands (h.knows k t there i .heard (Task.standing_of_presenting presenting)) ?_
      rintro ⟨language', carried⟩
      have serves := (sound.slots other).owned i (.inr ⟨k, _, (own other).trans presenting, rfl⟩)
      have first := (sound.slots other).suits k _ ((own other).trans presenting) nofun
      cases (congrArg (Option.map Prod.fst)
        (sound.untold ((own language').trans carried) serves).2).symm.trans first.2
  · have aside : (s.turned k t).fleet.slot other = s.fleet.slot other := works.others other same
    exact kept (aside ▸ active)

theorem running_turned {other : String} {i : Nat}
    (running : ((s.turned k t).fleet.slot other).running.map Prod.fst = some i) :
    (s.turned k t).fleet.Serves other i ∧ (s.turned k t).fleet.Stands i .heard := by
  obtain ⟨tends, knows, -⟩ := h.attends there
  obtain ⟨language, deed, works, -, -⟩ := t.works (f := s.fleet) (k := k)
  have kept (before : (s.fleet.slot other).running.map Prod.fst = some i) :
      (s.turned k t).fleet.Serves other i ∧ (s.turned k t).fleet.Stands i .heard := by
    obtain ⟨serves, heard⟩ := h.running other i before
    refine ⟨(works.serves other i).mpr (.inl serves), tends.stands heard ?_⟩
    rintro ⟨language', carried⟩
    have empty := (sound.untold ((grips_of_call there language').trans carried) serves).2
    rw [empty] at before
    cases before
  by_cases same : other = language
  · subst same
    rcases works.move.running running with before | presenting
    · exact kept before
    · obtain ⟨t', rest, grip⟩ := Option.bind_eq_some_iff.mp presenting
      have now : (s.turned k t).grips other k = some (.presenting i) := by
        simp [grips, Traffic.turned, rest, grip]
      refine ⟨((sound.turned there).slots other).owned i (.inr ⟨k, _, now, rfl⟩), knows i .heard ?_⟩
      rw [rest]
      exact Task.standing_of_presenting grip
  · have aside : (s.turned k t).fleet.slot other = s.fleet.slot other := works.others other same
    exact kept (aside ▸ running)

/-- A call takes a step. -/
theorem turned : (s.turned k t).Attended := by
  obtain ⟨tends, -, ordinary⟩ := h.attends there
  constructor
  · intro j t' stands
    by_cases same : j = k
    · subst same
      exact ordinary t' ((s.calls_turned_self j t).symm.trans stands)
    · exact h.ordinary j t' ((s.calls_turned_of_ne same t).symm.trans stands)
  · exact tends.tended
  · exact fun j t' stands => h.knows_turned sound there stands
  · exact fun other i active => h.active_turned sound there active
  · exact fun other i running => h.running_turned sound there running

end turn

/-- Every link goes on. -/
theorem followed (h : s.Attended) {f f' : Fleet} (tends : s.fleet.Tends f' fun _ => False)
    (links : f.links = f'.links) (slots : f.slots = s.fleet.slots) :
    ({ s with fleet := f } : Traffic).Attended := by
  have slot (language : String) : f.slot language = s.fleet.slot language := by rw [Fleet.slot, slots]; rfl
  have goes (i : Nat) (st : Link.Standing) (before : s.fleet.Stands i st) : f.Stands i st := by
    unfold Fleet.Stands
    rw [links]
    exact tends.stands before id
  constructor
  · exact h.ordinary
  · refine ⟨?_, slots ▸ h.tended.sorted⟩
    rw [links]
    exact tends.tended.links
  · exact fun k t there i st standing => goes i st (h.knows k t there i st standing)
  · intro language i active
    exact goes i .heard (h.active language i (slot language ▸ active))
  · intro language i running
    obtain ⟨⟨l, there, serves⟩, heard⟩ := h.running language i (slot language ▸ running)
    obtain ⟨l', there', onward, -⟩ := tends.forward i l there
    refine ⟨⟨l', ?_, onward.continues.client.language.trans serves⟩, goes i .heard heard⟩
    rw [links]
    exact there'

/-- Calls that know of no link come in place of others. -/
theorem entered (h : s.Attended) {tickets : Nat} (ordinary : t.isOrdinary = true)
    (unknowing : t.standing = none) :
    ({ s with calls := Function.update s.calls k (some t), tickets := tickets } : Traffic).Attended := by
  constructor
  · intro j t' stands
    by_cases same : j = k
    · subst same
      cases (Function.update_self ..).symm.trans stands
      exact ordinary
    · exact h.ordinary j t' ((Function.update_of_ne same ..).symm.trans stands)
  · exact h.tended
  · intro j t' stands
    by_cases same : j = k
    · subst same
      cases (Function.update_self ..).symm.trans stands
      rw [unknowing]
      exact .none
    · exact h.knows j t' ((Function.update_of_ne same ..).symm.trans stands)
  · exact h.active
  · exact h.running

theorem next (h : s.Attended) (sound : s.Sound) {move : Move} (ordinary : move.isOrdinary = true) :
    (s.next move).Attended := by
  cases move with
  | begin t =>
    simp only [Traffic.next]
    split
    · next fresh => exact h.entered ordinary (Task.standing_of_isFresh fresh)
    · exact h
  | turn k =>
    simp only [Traffic.next]
    split
    · exact h
    · next t there => exact h.turned sound there
  | note k languages =>
    simp only [Traffic.next]
    split
    · split
      · exact h.entered rfl rfl
      · exact h
    · exact h
  | act i a =>
    obtain ⟨f', tends, links, slots⟩ := Fleet.tends_act h.tended i ordinary
    exact h.followed tends links slots
  | pass time => exact h.followed (.refl h.tended) rfl rfl
  | configure config launcher => exact h.followed (.refl h.tended) rfl rfl

/-- What is known of every state of a run in which nobody but starts and stops ends a server. -/
theorem run (h : s.Attended) (sound : s.Sound) {moves : List Move}
    (ordinary : ∀ move ∈ moves, move.isOrdinary = true) : (s.run moves).Attended := by
  induction moves generalizing s with
  | nil => exact h
  | cons move moves ih =>
    have first := ordinary move List.mem_cons_self
    exact ih (h.next sound first) (sound.next move) fun m later => ordinary m (List.mem_cons_of_mem _ later)

end Attended

end Traffic

end LanguageHost
