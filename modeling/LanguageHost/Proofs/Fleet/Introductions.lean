import LanguageHost.Proofs.Fleet.Attended
import LanguageHost.Proofs.Session.Introduction

/-!
The first requests to the servers of a fleet. In every run they convey the options of the configuration with
which the server was launched, and a server that others are told of was sent one.
-/
namespace LanguageHost

theorem Link.Advances.mono {sent sent' : Prop} {l l' : Link} (h : l.Advances sent l') (wider : sent → sent') :
    l.Advances sent' l' := ⟨h.continues, h.conveys, fun there => (h.greeting there).imp_right wider⟩

namespace Fleet

/-- A first request is queued for the server of a link. -/
def Introduces (f : Fleet) (i : Nat) : Prop := ∃ l, f.links[i]? = some l ∧ l.client.Introduces

/-- What a greeting asks with conveys the options of the link that it works on. -/
def Asks (f : Fleet) (i : Nat) : GreetStage → Prop
  | .fresh => True
  | .asking q s => ∃ l, f.links[i]? = some l ∧ (GreetStage.asking q s).Conveys l.client.config.initOptions

/-- Every link goes on. -/
def Forwards (f f' : Fleet) (sent : Nat → Prop) : Prop :=
  ∀ (i : Nat) (l : Link), f.links[i]? = some l → ∃ l', f'.links[i]? = some l' ∧ l.Advances (sent i) l'

/-- A link that nothing has been queued on yet, with the options that the configuration has. -/
structure Launches (f : Fleet) (l : Link) : Prop where
  outbound : l.client.outbound = []
  greeting : l.client.greeting = none
  config : ∃ c, f.config l.client.language = some c ∧ l.client.config.initOptions = c.initOptions

/-- What a step does to the links, where a first request was queued for some of them. -/
structure Advances (f f' : Fleet) (sent : Nat → Prop) : Prop where
  forward : f.Forwards f' sent
  launches : ∀ (i : Nat) (l' : Link), f'.links[i]? = some l' → f.links[i]? = none → f.Launches l'
  config : f'.config = f.config

variable {f f' : Fleet} {sent : Nat → Prop} {i k : Nat}

namespace Advances

theorem of_links (links : f'.links = f.links) (config : f'.config = f.config) : f.Advances f' sent := by
  constructor
  · intro i l there
    exact ⟨l, links ▸ there, .refl l⟩
  · intro i l' there' missing
    rw [links, missing] at there'
    cases there'
  · exact config

theorem refl : f.Advances f sent := of_links rfl rfl

/-- Slots are no concern of links. -/
theorem change (h : f.Advances f' sent) (language : String) (change : Slot → Slot) :
    f.Advances (f'.changeSlot language change) sent := ⟨h.forward, h.launches, h.config⟩

theorem leave (h : f.Advances f' sent) (language : String) (k : Nat) : f.Advances (f'.leave language k) sent :=
  h.change language _

theorem onLink {α : Type} {step : Link → Link × α} {missing : α}
    (h : ∀ l, f.links[i]? = some l → l.Advances (sent i) (step l).1) :
    f.Advances (f.onLink i step missing).1 sent := by
  cases there : f.links[i]? with
  | none =>
    simp only [Fleet.onLink, there]
    exact refl
  | some l =>
    rw [onLink_some there]
    constructor
    · intro j l₁ there₁
      rw [links_setLink there]
      by_cases same : j = i
      · subst same
        cases there.symm.trans there₁
        exact ⟨_, if_pos rfl, h l there⟩
      · exact ⟨l₁, by rw [if_neg same, there₁], .refl l₁⟩
    · intro j l' there' missing
      rw [links_setLink there] at there'
      split at there'
      · next same =>
        subst same
        cases there.symm.trans missing
      · cases there'.symm.trans missing
    · rfl

end Advances

theorem Asks.forward {s : GreetStage} (asks : f.Asks i s) (h : f.Forwards f' sent) : f'.Asks i s := by
  cases s with
  | fresh => trivial
  | asking q s =>
    obtain ⟨l, there, conveys⟩ := asks
    obtain ⟨l', there', advances⟩ := h i l there
    exact ⟨l', there', advances.continues.client.config ▸ conveys⟩

theorem Asks.conveys {s : GreetStage} (h : f.Asks i s) {l : Link} (there : f.links[i]? = some l) :
    s.Conveys l.client.config.initOptions := by
  cases s with
  | fresh => trivial
  | asking q s =>
    obtain ⟨l', there', conveys⟩ := h
    cases there.symm.trans there'
    exact conveys

/-- What is known of a greeting: what it asks with, and whether its request has been queued. -/
def Greets (f : Fleet) (sent : Nat → Prop) (i : Nat) (s : GreetStage) : Prop :=
  f.Asks i s ∧ (s.HasSent → sent i)

/-- A greeting takes a step. -/
theorem greets_step {l l' : Link} {s s' : GreetStage} {now : Nat} (h : f.Greets sent i s)
    (there : f.links[i]? = some l) (there' : f'.links[i]? = some l')
    (stepped : l'.client = (l.client.greet now s).1) (shown : f'.Introduces i → sent i)
    (rest : (l.client.greet now s).2.rest? s = some s') : f'.Greets sent i s' := by
  have told := h.1.conveys there
  have config : l'.client.config = l.client.config := by
    rw [stepped]
    exact (Link.continues_greet now l s).client.config
  constructor
  · cases s' with
    | fresh => trivial
    | asking q st => exact ⟨l', there', config ▸ Client.conveys_greet now told rest⟩
  · intro sent'
    rcases (Client.shows_greet now l.client told).sent s' rest sent' with before | introduces
    · exact h.2 before
    · exact shown ⟨l', there', stepped ▸ introduces⟩

/-! Starting. -/

namespace StartStage

/-- The greeting of a start, and its link. -/
def greetStage? : StartStage → Option (Nat × GreetStage)
  | .greeting i _ s => some (i, s)
  | _ => none

/-- The server that has answered the first request of a start. -/
def introduced? : StartStage → Option Nat
  | .greeted i _ | .listening i _ | .published i => some i
  | _ => none

end StartStage

variable {r : StartRequest}

theorem launch_ok {config : LaunchConfig} (h : f.launch r = .ok (i, config, f')) :
    f.Advances f' sent ∧ f'.links.length = f.links.length + 1 := by
  simp only [launch, bind, Except.bind] at h
  split at h
  · cases h
  next c found =>
  have configured : f.config r.language = some c := by
    unfold launchConfig at found
    split at found
    · cases found
    · next c' there =>
      split at found
      · cases found
        exact there
      · cases found
  split at h
  · cases h
  next connection connected =>
  cases h
  refine ⟨⟨fun j l there => ?_, fun j l' there' missing => ?_, rfl⟩, by simp⟩
  · have bound : j < f.links.length := (List.getElem?_eq_some_iff.mp there).1
    exact ⟨l, (List.getElem?_append_left bound).trans there, .refl l⟩
  · rw [List.getElem?_append_right (List.getElem?_eq_none_iff.mp missing), List.getElem?_singleton] at there'
    split at there'
    · cases there'
      exact ⟨rfl, rfl, _, configured, rfl⟩
    · cases there'

theorem advances_start (k : Nat) (r : StartRequest) {s : StartStage}
    (greets : ∀ i st, s.greetStage? = some (i, st) → f.Greets sent i st) :
    f.Advances (f.start k r s).1 sent := by
  cases s with
  | fresh => exact .of_links rfl rfl
  | found => exact .of_links rfl rfl
  | queued =>
    simp only [start]
    split
    · exact .refl
    · split
      · exact .refl
      · exact .of_links rfl rfl
      · exact .of_links rfl rfl
  | unpublished =>
    simp only [start]
    split
    · exact .refl
    · exact .of_links rfl rfl
  | replacing i s =>
    have advances : f.Advances (f.onLink i (fun l => l.stop f.now s) (.done (.ok ()))).1 sent :=
      .onLink fun l _ => .stop f.now l s
    simp only [start]
    split
    all_goals
      next stepped =>
      rw [stepped] at advances
      exact advances
  | launching =>
    simp only [start]
    split
    · exact .of_links rfl rfl
    · next launched => exact (launch_ok launched).1
  | greeting i config s =>
    obtain ⟨asks, sent'⟩ := greets i s rfl
    have advances : f.Advances (f.onClient i (fun c => c.greet f.now s) (.done (.error (.crashed r.language)))).1
        sent := .onLink fun l there => (Link.Advances.greet f.now l (asks.conveys there)).mono sent'
    simp only [start]
    split
    all_goals
      next stepped =>
      rw [stepped] at advances
      exact advances
  | failed i e =>
    have advances : f.Advances (f.onLink i (fun l => (l.terminate, ())) ()).1 sent :=
      .onLink fun l _ => Link.Advances.act l .terminate
    exact advances.leave r.language k
  | greeted i config =>
    have advances : f.Advances (f.onLink i (fun l => (l.startListening config.settings).swap) false).1 sent :=
      .onLink fun l _ => Link.Advances.act l (.startListening config.settings)
    simp only [start]
    split
    all_goals
      next stepped =>
      rw [stepped] at advances
      exact advances
  | listening i config => exact .of_links rfl rfl
  | published i => exact .of_links rfl rfl

theorem advances_evict (k : Nat) (language : String) (s : EvictStage) :
    f.Advances (f.evict k language s).1 sent := by
  cases s with
  | found => exact .of_links rfl rfl
  | queued =>
    simp only [evict]
    split
    · exact .refl
    · split
      · exact .of_links rfl rfl
      · exact .of_links rfl rfl
  | taken i => exact .of_links rfl rfl
  | ending i s =>
    have advances : f.Advances (f.onLink i (fun l => l.stop f.now s) (.done (.ok ()))).1 sent :=
      .onLink fun l _ => .stop f.now l s
    simp only [evict]
    split
    · next stepped =>
      rw [stepped] at advances
      exact advances.leave language k
    all_goals
      next stepped =>
      rw [stepped] at advances
      exact advances

/-- Where a start goes from a step of its greeting. -/
def StartStage.afterGreet (i : Nat) (config : LaunchConfig) :
    Turn GreetStage (Except Error Json) → Turn StartStage (Except Error Nat)
  | .wait d => .wait d
  | .go s => .go (.greeting i config s)
  | .done (.error e) => .go (.failed i e)
  | .done (.ok _) => .go (.greeted i config)

theorem start_greeting {config : LaunchConfig} {s : GreetStage} {l : Link} (there : f.links[i]? = some l) :
    f.start k r (.greeting i config s) = (f.setLink i (l.onClient fun c => c.greet f.now s).1,
      StartStage.afterGreet i config (l.client.greet f.now s).2) := by
  simp only [start, onClient, onLink_some there, Link.onClient]
  generalize l.client.greet f.now s = went
  obtain ⟨c, d | s | ⟨e | j⟩⟩ := went
  all_goals rfl

theorem StartStage.rest_afterGreet {config : LaunchConfig} {s : GreetStage} {s' : StartStage}
    {turn : Turn GreetStage (Except Error Json)}
    (rest : (afterGreet i config turn).rest? (.greeting i config s) = some s') :
    (∃ st, s' = .greeting i config st ∧ turn.rest? s = some st) ∨ (∃ e, s' = .failed i e) ∨
      s' = .greeted i config ∧ ∃ j, turn = .done (.ok j) := by
  obtain d | st | ⟨e | j⟩ := turn
  · cases rest
    exact .inl ⟨s, rfl, rfl⟩
  · cases rest
    exact .inl ⟨st, rfl, rfl⟩
  · cases rest
    exact .inr (.inl ⟨e, rfl⟩)
  · cases rest
    exact .inr (.inr ⟨rfl, j, rfl⟩)

/-- A start that greets a server which is not there does not go on to greet. -/
theorem start_greeting_missing {config : LaunchConfig} {s : GreetStage} (missing : f.links[i]? = none) :
    f.start k r (.greeting i config s) = (f, .go (.failed i (.crashed r.language))) := by
  simp only [start, onClient, onLink, missing]

section start
variable {s s' : StartStage} (greets : ∀ i st, s.greetStage? = some (i, st) → f.Greets sent i st)
  (rest : (f.start k r s).2.rest? s = some s')
include greets rest

/-- A start that greets goes on to greet, or its server has answered. -/
theorem greets_start (shown : ∀ i, (f.start k r s).1.Introduces i → sent i) {st : GreetStage}
    (stage : s'.greetStage? = some (i, st)) : (f.start k r s).1.Greets sent i st := by
  cases s with
  | fresh | found | listening =>
    cases rest
    cases stage
  | published | failed => cases rest
  | queued | unpublished | replacing | greeted =>
    simp only [start] at rest
    split at rest
    all_goals try split at rest
    all_goals
      cases rest
      try cases stage
  | launching =>
    simp only [start] at rest ⊢
    split at rest
    · cases rest
    · cases rest
      cases stage
      exact ⟨trivial, False.elim⟩
  | greeting j config st₀ =>
    cases there : f.links[j]? with
    | none =>
      rw [start_greeting_missing there] at rest
      cases rest
      cases stage
    | some l =>
      rw [start_greeting there] at rest shown ⊢
      have there' : (f.setLink j (l.onClient fun c => c.greet f.now st₀).1).links[j]? = some _ :=
        (links_setLink there j).trans (if_pos rfl)
      obtain ⟨st', rfl, rest'⟩ | ⟨e, rfl⟩ | ⟨rfl, -⟩ := StartStage.rest_afterGreet rest
      · cases stage
        exact greets_step (greets i st₀ rfl) there there' rfl (shown i) rest'
      · cases stage
      · cases stage

/-- The server that a start goes on with has answered its first request. -/
theorem introduced_start (greeted : ∀ (i : Nat) (l : Link), f.links[i]? = some l →
      l.client.greeting.isSome = true → sent i)
    (known : ∀ i, s.introduced? = some i → sent i) (stage : s'.introduced? = some i) : sent i := by
  cases s with
  | fresh | found =>
    cases rest
    cases stage
  | published | failed => cases rest
  | listening j config =>
    cases rest
    cases stage
    exact known i rfl
  | greeted j config =>
    simp only [start] at rest
    split at rest
    all_goals
      cases rest
      cases stage
    exact known i rfl
  | queued | unpublished | replacing | launching =>
    simp only [start] at rest
    split at rest
    all_goals try split at rest
    all_goals
      cases rest
      try cases stage
  | greeting j config st =>
    cases there : f.links[j]? with
    | none =>
      rw [start_greeting_missing there] at rest
      cases rest
      cases stage
    | some l =>
      rw [start_greeting there] at rest
      obtain ⟨st', rfl, -⟩ | ⟨e, rfl⟩ | ⟨rfl, a, answered⟩ := StartStage.rest_afterGreet rest
      · cases stage
      · cases stage
      · cases stage
        obtain ⟨asks, sent'⟩ := greets i st rfl
        rcases (Client.shows_greet f.now l.client (asks.conveys there)).answered a answered with before | queued
        · exact greeted i l there before
        · exact sent' queued

end start

end Fleet

/-! Calls. -/

namespace Task

/-- The greeting of a call, and its link. -/
def greetStage? : Task → Option (Nat × GreetStage)
  | .call i c => c.greetStage?.map fun s => (i, s)
  | .start _ s => s.greetStage?
  | _ => none

/-- The server that has answered the first request of a start. -/
def introduced? : Task → Option Nat
  | .start _ s => s.introduced?
  | _ => none

/-- Only greetings make first requests. -/
def isProper : Task → Bool
  | .call _ c => c.isProper
  | _ => true

/-- Whoever presents a server has its answer to the first request. -/
theorem introduced_of_presenting {t : Task} {language : String} {i : Nat}
    (h : t.grip language = some (.presenting i)) : t.introduced? = some i := by
  cases t with
  | call j c => cases h
  | start r s =>
    simp only [grip] at h
    split at h
    · cases s with
      | published j =>
        cases h
        rfl
      | _ => cases h
    · cases h
  | stop other s =>
    cases s with
    | fresh => cases h
    | evicting s =>
      simp only [grip] at h
      split at h
      · cases s with
        | _ => cases h
      · cases h
  | stopAll s =>
    cases s with
    | fresh | next => cases h
    | evicting other s todo failures =>
      simp only [grip] at h
      split at h
      · cases s with
        | _ => cases h
      · cases h

/-- What is known of a call, where first requests were queued for some servers. -/
structure Introduced (f : Fleet) (sent : Nat → Prop) (t : Task) : Prop where
  proper : t.isProper = true
  greets : ∀ i s, t.greetStage? = some (i, s) → f.Greets sent i s
  past : ∀ i, t.introduced? = some i → sent i

variable {f f' : Fleet} {sent : Nat → Prop} {k : Nat} {t t' : Task}

theorem Introduced.keep (h : t.Introduced f sent) (forwards : f.Forwards f' sent) : t.Introduced f' sent := by
  refine ⟨h.proper, fun i s stage => ?_, h.past⟩
  obtain ⟨asks, sent'⟩ := h.greets i s stage
  exact ⟨asks.forward forwards, sent'⟩

theorem Introduced.of_stopping (h : t.isProper = true) (idle : t.greetStage? = none)
    (unready : t.introduced? = none) : t.Introduced f sent := by
  refine ⟨h, fun i s stage => ?_, fun i there => ?_⟩
  · cases idle.symm.trans stage
  · cases unready.symm.trans there

theorem introduced_of_isFresh (fresh : t.isFresh = true) (proper : t.isProper = true) : t.Introduced f sent := by
  refine ⟨proper, fun i s stage => ?_, fun i there => ?_⟩
  · cases t with
    | call j c =>
      cases c with
      | greet s' =>
        cases s' with
        | fresh =>
          cases stage
          exact ⟨trivial, False.elim⟩
        | asking => cases fresh
      | _ => cases stage
    | start r s' =>
      cases s' with
      | fresh => cases stage
      | _ => cases fresh
    | stop | stopAll => cases stage
  · cases t with
    | start r s =>
      cases s with
      | fresh => cases there
      | _ => cases fresh
    | _ => cases there

theorem Introduced.advances (k : Nat) (h : t.Introduced f sent) : f.Advances (t.step k f).1 sent := by
  cases t with
  | call i c =>
    refine .onLink fun l there => ?_
    have greets (s : GreetStage) (stage : c.greetStage? = some s) : f.Greets sent i s :=
      h.greets i s (by simp [greetStage?, stage])
    refine (ClientCall.advances_step f.now l h.proper fun s stage => (greets s stage).1.conveys there).mono ?_
    rintro ⟨s, stage, sent'⟩
    exact (greets s stage).2 sent'
  | start r s => exact Fleet.advances_start k r h.greets
  | stop language s =>
    cases s with
    | fresh =>
      simp only [step, Fleet.stop]
      split <;> exact .refl
    | evicting s => exact Fleet.advances_evict k language s
  | stopAll s =>
    cases s with
    | fresh => exact .refl
    | next todo failures => cases todo <;> exact .refl
    | evicting language s todo failures =>
      have advances : f.Advances (f.evict k language s).1 sent := Fleet.advances_evict k language s
      simp only [step, Fleet.stopAll]
      split
      all_goals
        next stepped =>
        rw [stepped] at advances
        exact advances

/-- A call goes on after a step. -/
theorem Introduced.step (h : t.Introduced f sent) (greeted : ∀ (i : Nat) (l : Link), f.links[i]? = some l →
      l.client.greeting.isSome = true → sent i)
    (shown : ∀ i, (t.step k f).1.Introduces i → sent i) (rest : (t.step k f).2.rest? t = some t') :
    t'.Introduced (t.step k f).1 sent := by
  cases t with
  | call i c =>
    cases there : f.links[i]? with
    | none =>
      simp only [Task.step, Fleet.onLink, there] at rest
      cases rest
    | some l =>
      simp only [Task.step, Fleet.onLink_some there, Turn.rest?_lift] at rest shown ⊢
      obtain ⟨c', rest', rfl⟩ := Option.map_eq_some_iff.mp rest
      refine ⟨ClientCall.proper_step h.proper rest', fun j s' stage => ?_, fun _ stage => (by cases stage)⟩
      obtain ⟨s₁, stage', same⟩ := Option.map_eq_some_iff.mp stage
      cases same
      obtain ⟨s, rfl, rest''⟩ := ClientCall.greetStage_step rest' stage'
      have there' : (f.setLink i ((ClientCall.greet s).step f.now l).1).links[i]? = some _ :=
        (Fleet.links_setLink there i).trans (if_pos rfl)
      exact Fleet.greets_step (h.greets i s rfl) there there' rfl (shown i) rest''
  | start r s =>
    simp only [Task.step, Turn.rest?_lift] at rest
    obtain ⟨s', rest', rfl⟩ := Option.map_eq_some_iff.mp rest
    exact ⟨rfl, fun i st stage => Fleet.greets_start h.greets rest' shown stage,
      fun i stage => Fleet.introduced_start h.greets rest' greeted h.past stage⟩
  | stop language s =>
    simp only [Task.step, Turn.rest?_lift] at rest
    obtain ⟨s', -, rfl⟩ := Option.map_eq_some_iff.mp rest
    exact .of_stopping rfl rfl rfl
  | stopAll s =>
    simp only [Task.step, Turn.rest?_lift] at rest
    obtain ⟨s', -, rfl⟩ := Option.map_eq_some_iff.mp rest
    exact .of_stopping rfl rfl rfl

end Task

namespace Traffic

/-- Only greetings make first requests, and whatever configuration comes has these options. -/
def Move.IsProper (options : String → Option Json) : Move → Prop
  | .begin t => t.isProper = true
  | .configure config _ => ∀ language c, config language = some c → c.initOptions = options language
  | _ => True

/-- What is known of every state of a run in which first requests were queued for some servers. -/
structure Introduced (s : Traffic) (options : String → Option Json) (sent : Nat → Prop) : Prop where
  config : ∀ language c, s.fleet.config language = some c → c.initOptions = options language
  configured : ∀ (i : Nat) (l : Link), s.fleet.links[i]? = some l →
    l.client.config.initOptions = options l.client.language
  conveys : ∀ (i : Nat) (l : Link), s.fleet.links[i]? = some l → l.Conveys
  greeted : ∀ (i : Nat) (l : Link), s.fleet.links[i]? = some l → l.client.greeting.isSome = true → sent i
  calls : ∀ k t, s.calls k = some t → t.Introduced s.fleet sent
  running : ∀ language i, (s.fleet.slot language).running.map Prod.fst = some i →
    s.fleet.Serves language i ∧ sent i

namespace Introduced

variable {s : Traffic} {options : String → Option Json} {sent : Nat → Prop} {k : Nat} {t : Task}

theorem start {config : String → Option LaunchConfig}
    (configured : ∀ language c, config language = some c → c.initOptions = options language) (timeout : Nat)
    (launcher : Launcher) : (start config timeout launcher).Introduced options sent := by
  constructor
  · exact configured
  · intro i l there
    cases there
  · intro i l there
    cases there
  · intro i l there
    cases there
  · intro k t there
    cases there
  · intro language i running
    cases running

/-- What a step that advances the links keeps of them. -/
theorem links {f : Fleet} (h : s.Introduced options sent) (advances : s.fleet.Advances f sent) {i : Nat} {l' : Link}
    (there' : f.links[i]? = some l') : l'.client.config.initOptions = options l'.client.language ∧ l'.Conveys ∧
      (l'.client.greeting.isSome = true → sent i) := by
  cases there : s.fleet.links[i]? with
  | none =>
    obtain ⟨outbound, greeting, c, found, same⟩ := advances.launches i l' there' there
    refine ⟨same.trans (h.config _ c found), fun o queued => ?_, fun answered => ?_⟩
    · rw [outbound] at queued
      cases queued
    · rw [greeting] at answered
      cases answered
  | some l =>
    obtain ⟨l₁, there₁, step⟩ := advances.forward i l there
    cases there₁.symm.trans there'
    have continues := step.continues.client
    refine ⟨?_, step.conveys (h.conveys i l there), fun answered => ?_⟩
    · rw [continues.config, continues.language]
      exact h.configured i l there
    · exact (step.greeting answered).elim (h.greeted i l there) id

theorem turned (h : s.Introduced options sent) (sound : s.Sound) (there : s.calls k = some t)
    (shown : ∀ i, (s.turned k t).fleet.Introduces i → sent i) : (s.turned k t).Introduced options sent := by
  have known := h.calls k t there
  have advances := known.advances k
  have calls (j : Nat) (t' : Task) (stands : (s.turned k t).calls j = some t') :
      t'.Introduced (s.turned k t).fleet sent := by
    by_cases same : j = k
    · subst same
      rw [calls_turned_self] at stands
      exact known.step h.greeted shown stands
    · rw [s.calls_turned_of_ne same] at stands
      exact (h.calls j t' stands).keep advances.forward
  constructor
  · rw [show (s.turned k t).fleet.config = s.fleet.config from advances.config]
    exact h.config
  · exact fun i l' there' => (h.links advances there').1
  · exact fun i l' there' => (h.links advances there').2.1
  · exact fun i l' there' => (h.links advances there').2.2
  · exact calls
  · intro other i running
    obtain ⟨language, deed, works, -, -⟩ := t.works (f := s.fleet) (k := k)
    have kept (before : (s.fleet.slot other).running.map Prod.fst = some i) :
        (s.turned k t).fleet.Serves other i ∧ sent i := by
      obtain ⟨serves, sent'⟩ := h.running other i before
      exact ⟨(works.serves other i).mpr (.inl serves), sent'⟩
    by_cases same : other = language
    · subst same
      rcases works.move.running running with before | presenting
      · exact kept before
      · obtain ⟨t', rest, grip⟩ := Option.bind_eq_some_iff.mp presenting
        have stands : (s.turned k t).calls k = some t' := (s.calls_turned_self k t).trans rest
        have now : (s.turned k t).grips other k = some (.presenting i) := (grips_of_call stands other).trans grip
        exact ⟨((sound.turned there).slots other).owned i (.inr ⟨k, _, now, rfl⟩),
          (calls k t' stands).past i (Task.introduced_of_presenting grip)⟩
    · have aside : (s.turned k t).fleet.slot other = s.fleet.slot other := works.others other same
      exact kept (aside ▸ running)

/-- Calls that begin, or have not yet to do with any server, come in place of others. -/
theorem entered (h : s.Introduced options sent) {tickets : Nat} (known : t.Introduced s.fleet sent) :
    ({ s with calls := Function.update s.calls k (some t), tickets := tickets } : Traffic).Introduced
      options sent := by
  refine ⟨h.config, h.configured, h.conveys, h.greeted, fun j t' stands => ?_, h.running⟩
  by_cases same : j = k
  · subst same
    cases (Function.update_self ..).symm.trans stands
    exact known
  · exact h.calls j t' ((Function.update_of_ne same ..).symm.trans stands)

theorem act (h : s.Introduced options sent) (i : Nat) (a : Link.Act) :
    ({ s with fleet := s.fleet.act i a } : Traffic).Introduced options sent := by
  let step (l : Link) : Link × List LanguageEvent :=
    ((l.act a).1, (l.act a).2.map fun r => ⟨l.client.language, r⟩)
  have moved : s.fleet.Advances (s.fleet.onLink i step []).1 sent := .onLink fun l _ => .act l a
  have advances : s.fleet.Advances (s.fleet.act i a) sent := ⟨moved.forward, moved.launches, moved.config⟩
  obtain ⟨slots, follows⟩ := s.fleet.works_act i a
  constructor
  · rw [show (s.fleet.act i a).config = s.fleet.config from advances.config]
    exact h.config
  · exact fun j l' there' => (h.links advances there').1
  · exact fun j l' there' => (h.links advances there').2.1
  · exact fun j l' there' => (h.links advances there').2.2
  · exact fun k t stands => (h.calls k t stands).keep advances.forward
  · intro language j running
    rw [Fleet.slot, slots] at running
    obtain ⟨serves, sent'⟩ := h.running language j running
    exact ⟨(follows.serves language).mpr serves, sent'⟩

theorem next (h : s.Introduced options sent) (sound : s.Sound) {move : Move} (proper : move.IsProper options)
    (shown : ∀ i, (s.next move).fleet.Introduces i → sent i) : (s.next move).Introduced options sent := by
  cases move with
  | begin t =>
    simp only [Traffic.next]
    split
    · next fresh => exact h.entered (Task.introduced_of_isFresh fresh proper)
    · exact h
  | turn k =>
    simp only [Traffic.next] at shown ⊢
    split
    · exact h
    · next t there =>
      simp only [there] at shown
      exact h.turned sound there shown
  | note k languages =>
    simp only [Traffic.next]
    split
    · split
      · exact h.entered (.of_stopping rfl rfl rfl)
      · exact h
    · exact h
  | act i a => exact h.act i a
  | pass time =>
    refine ⟨h.config, h.configured, h.conveys, h.greeted, fun k t there => ?_, h.running⟩
    exact (h.calls k t there).keep fun _ l there => ⟨l, there, .refl l⟩
  | configure config launcher =>
    refine ⟨proper, h.configured, h.conveys, h.greeted, fun k t there => ?_, h.running⟩
    exact (h.calls k t there).keep fun _ l there => ⟨l, there, .refl l⟩

theorem run (h : s.Introduced options sent) (sound : s.Sound) {moves : List Move}
    (proper : ∀ move ∈ moves, move.IsProper options)
    (shown : ∀ before, before <+: moves → ∀ i, (s.run before).fleet.Introduces i → sent i) :
    (s.run moves).Introduced options sent := by
  induction moves generalizing s with
  | nil => exact h
  | cons move moves ih =>
    have first := h.next sound (proper move List.mem_cons_self)
      (shown [move] (List.cons_prefix_cons.mpr ⟨rfl, List.nil_prefix⟩))
    refine ih first (sound.next move) (fun m later => proper m (List.mem_cons_of_mem _ later)) ?_
    exact fun before short => shown (move :: before) (List.cons_prefix_cons.mpr ⟨rfl, short⟩)

end Introduced

end Traffic

end LanguageHost
