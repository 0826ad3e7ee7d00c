import Mathlib.Data.List.Forall2
import LanguageHost.Proofs.Session.Run

/-!
What a server sends of its own accord, and what becomes of it. The listener takes messages up in the order
in which they came, and answers each request before it takes up the next; so the answers stand in the order
of the requests, one for each, wherever the listener is stopped.
-/
namespace LanguageHost

namespace Message

def isResponse : Message → Bool
  | .response _ => true
  | _ => false

theorem isResponse_eq_false {m : Message} (other : ∀ r, m ≠ .response r) : m.isResponse = false := by
  cases m with
  | response r => exact absurd rfl (other r)
  | _ => rfl

def request? : Message → Option Request
  | .request r => some r
  | _ => none

end Message

/-! Answers. -/

namespace ServerMethod

theorem mem_all (m : ServerMethod) : m ∈ all := by cases m <;> decide

theorem word_inj : ∀ {m n : ServerMethod}, m.word = n.word → m = n := by
  have distinct : ∀ m ∈ all, ∀ n ∈ all, m.word = n.word → m = n := by decide
  exact fun {m n} => distinct m (mem_all m) n (mem_all n)

/-- The parameters fit the method. -/
def Fits (m : ServerMethod) (params : Json) : Prop := ∀ s ∈ m.shape?, (s.read? params).isSome

/-- How a request is understood goes by its method, and by whether the parameters fit it. -/
theorem understand_cases (method : String) (params : Json) :
    (understand method params = .unsupported ∧ ∀ m : ServerMethod, m.word ≠ method) ∨
      ∃ m : ServerMethod, m.word = method ∧
        (understand method params = .malformed ∧ ¬ m.Fits params ∨
          ∃ j, understand method params = .known m j ∧ m.Fits params) := by
  unfold understand
  cases found : all.find? fun m => m.word == method with
  | none =>
    left
    refine ⟨rfl, fun m same => ?_⟩
    have other := List.find?_eq_none.mp found m (mem_all m)
    exact other (beq_iff_eq.mpr same)
  | some m =>
    right
    have own : (m.word == method) = true :=
      List.find?_some (p := fun n : ServerMethod => n.word == method) found
    refine ⟨m, beq_iff_eq.mp own, ?_⟩
    dsimp only
    cases shaped : m.shape? with
    | none => exact .inr ⟨.null, rfl, by simp [Fits, shaped]⟩
    | some s =>
      dsimp only
      cases read : s.read? params with
      | none => exact .inl ⟨rfl, by simp [Fits, shaped, read]⟩
      | some j => exact .inr ⟨j, rfl, by simp [Fits, shaped, read]⟩

end ServerMethod

/-- The code of the error that a response tells. -/
def Response.code? (r : Response) : Option Int32 := r.error.map (·.code)

/-- The response is the one to the request: by its method and parameters it tells an error, or a result. -/
structure Request.Answered (r : Request) (a : Response) : Prop where
  id : a.id = r.id
  unsupported : a.code? = some ResponseError.methodNotFound ↔ ∀ m : ServerMethod, m.word ≠ r.method
  malformed : a.code? = some ResponseError.invalidParams ↔
    ∃ m : ServerMethod, m.word = r.method ∧ ¬ m.Fits r.params
  known : a.result.isSome = true ↔ ∃ m : ServerMethod, m.word = r.method ∧ m.Fits r.params
  single : a.error.isNone = a.result.isSome

theorem exists_word_iff {m : ServerMethod} {method : String} (own : m.word = method)
    (P : ServerMethod → Prop) : (∃ n : ServerMethod, n.word = method ∧ P n) ↔ P m := by
  constructor
  · rintro ⟨n, same, holds⟩
    exact ServerMethod.word_inj (own.trans same.symm) ▸ holds
  · exact fun holds => ⟨m, own, holds⟩

/-- Every request has its response. -/
theorem Request.exists_answered (settings : Option Json) (c : Client) (r : Request) :
    ∃ a, (Listener.react settings c (.request r)).response = some a ∧ r.Answered a := by
  simp only [Listener.react, Listener.onRequest]
  rcases ServerMethod.understand_cases r.method r.params with ⟨same, unknown⟩ | ⟨m, own, rest⟩
  · have none (P : ServerMethod → Prop) : ¬ ∃ m : ServerMethod, m.word = r.method ∧ P m := by
      rintro ⟨m, same, -⟩
      exact unknown m same
    rw [same]
    refine ⟨_, rfl, rfl, ?_, ?_, ?_, rfl⟩
    · exact iff_of_true rfl unknown
    · exact iff_of_false (by simp [Response.failure, Response.code?]; decide) (none _)
    · exact iff_of_false (by simp [Response.failure]) (none _)
  · have known : ¬ ∀ m : ServerMethod, m.word ≠ r.method := fun unknown => unknown m own
    rcases rest with ⟨same, unfit⟩ | ⟨j, same, fits⟩
    · rw [same]
      refine ⟨_, rfl, rfl, ?_, ?_, ?_, rfl⟩
      · exact iff_of_false (by simp [Response.failure, Response.code?]; decide) known
      · exact iff_of_true rfl ⟨m, own, unfit⟩
      · exact iff_of_false (by simp [Response.failure]) fun there =>
          unfit ((exists_word_iff own (·.Fits r.params)).mp there)
    · rw [same]
      refine ⟨_, rfl, rfl, ?_, ?_, ?_, rfl⟩
      · exact iff_of_false (by simp [Response.ok, Response.code?]) known
      · exact iff_of_false (by simp [Response.ok, Response.code?]) fun there =>
          (exists_word_iff own (¬ ·.Fits r.params)).mp there fits
      · exact iff_of_true rfl ⟨m, own, fits⟩

/-- Nothing else has one. -/
theorem Listener.response_react {settings : Option Json} {c : Client} {m : Message}
    (other : m.request? = none) : (react settings c m).response = none := by
  cases m with
  | request r => cases other
  | response r => rfl
  | notification n =>
    simp only [react, onNotification]
    split
    · rfl
    · rfl
    · rfl
    · rfl

theorem Listener.queue_answer (settings : Option Json) (c : Client) (m : ServerMethod) (params : Json) :
    (answer settings c m params).2.1.outbound = c.outbound ∧
      (answer settings c m params).2.1.isQueueOpen = c.isQueueOpen := by
  cases m <;> exact ⟨rfl, rfl⟩

theorem Listener.queue_react (settings : Option Json) (c : Client) (m : Message) :
    (react settings c m).client.outbound = c.outbound ∧
      (react settings c m).client.isQueueOpen = c.isQueueOpen := by
  cases m with
  | request r =>
    simp only [react, onRequest]
    split
    · exact ⟨rfl, rfl⟩
    · exact ⟨rfl, rfl⟩
    · exact queue_answer ..
  | notification n =>
    simp only [react, onNotification]
    split <;> exact ⟨rfl, rfl⟩
  | response r => exact ⟨rfl, rfl⟩

/-- The response is all that is queued. -/
theorem Listener.outbound_dispatch (settings : Option Json) (c : Client) (m : Message)
    (isOpen : c.isQueueOpen = true) :
    (dispatch settings c m).1.outbound =
      c.outbound ++ (react settings c m).response.toList.map fun r => .message (.response r) := by
  obtain ⟨outbound, queue⟩ := queue_react settings c m
  unfold dispatch
  generalize react settings c m = reaction at outbound queue ⊢
  obtain ⟨c', reports, response⟩ := reaction
  dsimp only at outbound queue ⊢
  cases response with
  | none => simpa using outbound
  | some r =>
    have told : c'.respond r = .ok { c' with outbound := c'.outbound ++ [.message (.response r)] } :=
      if_pos (queue.trans isOpen)
    simp [told, outbound]

/-! What an act is to the listener. -/

/-- What the listener has before it. -/
structure Ear where
  listening : Listening
  inbox : List Message

/-- All that can be done to it: a message that the reader has taken up comes in or not, and one is taken up
by the listener. -/
inductive Ear.Hears (e : Ear) : Option Message → Option Message → Ear → Prop
  | still : Hears e none none e
  | passes (m : Message) (past : m.isResponse = true ∨ e.listening = .stopped) : Hears e (some m) none e
  | comes (m : Message) (own : m.isResponse = false) (up : e.listening ≠ .stopped) :
      Hears e (some m) none { e with inbox := e.inbox ++ [m] }
  | hears (settings : Option Json) (m : Message) (rest : List Message)
      (running : e = ⟨.running settings, m :: rest⟩) : Hears e none (some m) ⟨.running settings, rest⟩
  | starts (settings : Option Json) (waiting : e.listening = .waiting) :
      Hears e none none { e with listening := .running settings }
  | stops : Hears e none none ⟨.stopped, []⟩

namespace Link

def ear (l : Link) : Ear := ⟨l.listening, l.inbox⟩

/-- The message that the reader takes up. -/
def taken? (l : Link) : Act → Option Message
  | .hand .reader =>
    if l.client.isReading && !l.client.isClosed then
      match l.decoder.next with
      | .message m _ => some m
      | _ => none
    else none
  | _ => none

/-- The message that the listener takes up. -/
def heard? (l : Link) : Act → Option Message
  | .hand .listener =>
    match l.listening with
    | .running _ => l.inbox.head?
    | _ => none
  | _ => none

/-- The response that the listener hands to the client. -/
def handed? (l : Link) (a : Act) : Option Response :=
  match l.listening with
  | .running settings => (l.heard? a).bind fun m => (Listener.react settings l.client m).response
  | _ => none

variable {l l' : Link}

theorem ear_write (h : l.Writes l') : l'.ear = l.ear := by
  cases h with
  | stops | sends => rfl

theorem ear_serve (h : l.Serves l') : l'.ear = l.ear := by
  cases h with
  | takes | finishes => rfl

theorem hears_route (l : Link) (m : Message) : l.ear.Hears (some m) none (l.route m).ear := by
  obtain ⟨r, rfl, accepted⟩ | ⟨other, ⟨stopped, left⟩ | ⟨up, entered⟩⟩ := l.route_cases m
  · rw [accepted]
    exact .passes _ (.inl rfl)
  · rw [left]
    exact .passes m (.inr stopped)
  · rw [entered]
    exact .comes m (Message.isResponse_eq_false other) up

theorem hears_read (l : Link) :
    l.ear.Hears (l.taken? (.hand .reader)) none ((l.read.getD l).ear) := by
  unfold taken? read
  cases reading : l.client.isReading with
  | false => exact .still
  | true =>
    cases closed : l.client.isClosed with
    | true => exact .still
    | false =>
      simp only [Bool.not_true, Bool.false_eq_true, if_false, Bool.not_false, Bool.and_self, if_true]
      cases next : l.decoder.next with
      | message m rest => exact hears_route { l with decoder := rest } m
      | fault e rest => exact .still
      | wait rest =>
        dsimp only
        split
        · exact .still
        · split
          · exact .still
          · exact .still

theorem hears_listen (l : Link) :
    l.ear.Hears none (l.heard? (.hand .listener)) (l.act (.hand .listener)).1.ear := by
  obtain ⟨client, toServer, isInputOpen, toClient, server, decoder, inbox, listening, isCancelled, process,
    holdsProcess⟩ := l
  cases listening with
  | waiting => exact .still
  | stopped => exact .still
  | running settings =>
    cases inbox with
    | nil =>
      cases reading : client.isReading with
      | true =>
        simp only [act, step, listen, reading]
        exact .still
      | false =>
        simp only [act, step, listen, reading]
        exact .stops
    | cons m rest => exact .hears settings m rest rfl

theorem hears_settled (l : Link) (r : Except Error Client) : l.ear.Hears none none (l.settled r).ear := by
  cases r with
  | ok c => exact .still
  | error e => exact .still

/-- What any act does to the listener. -/
theorem hears_act (l : Link) (a : Act) : l.ear.Hears (l.taken? a) (l.heard? a) (l.act a).1.ear := by
  cases a with
  | hand h =>
    cases h with
    | writer =>
      cases moved : l.write with
      | none =>
        simp only [act, step, moved]
        exact .still
      | some l' =>
        simp only [act, step, moved]
        exact ear_write (write_cases moved).2 ▸ .still
    | server =>
      cases moved : l.serve with
      | none =>
        simp only [act, step, moved]
        exact .still
      | some l' =>
        simp only [act, step, moved]
        exact ear_serve (serve_cases moved).2 ▸ .still
    | reader =>
      have heard := l.hears_read
      cases moved : l.read with
      | none =>
        rw [moved] at heard
        simp only [act, step, moved]
        exact heard
      | some l' =>
        rw [moved] at heard
        simp only [act, step, moved]
        exact heard
    | listener => exact l.hears_listen
  | emit bs =>
    simp only [act, emit]
    split
    · exact .still
    · exact .still
  | serverEnds => exact .still
  | openDocument d => exact hears_settled ..
  | closeDocument uri => exact hears_settled ..
  | notify method params => exact hears_settled ..
  | respond r => exact hears_settled ..
  | startListening settings =>
    simp only [act, startListening]
    split
    · next waiting => exact .starts settings waiting
    · exact .still
  | stopListening =>
    simp only [act, stopListening]
    split
    · exact .still
    · exact .stops
  | terminate =>
    simp only [act, terminate]
    split
    · exact .still
    · exact .still

theorem listening_heard {a : Act} {m : Message} (h : l.heard? a = some m) :
    ∃ settings, l.listening = .running settings := by
  unfold heard? at h
  split at h
  · split at h
    · next settings running => exact ⟨settings, running⟩
    · cases h
  · cases h

/-- A message that is taken up is answered if it is a request, and only then. -/
theorem answered_act (l : Link) (a : Act) : List.Forall₂ Request.Answered
    ((l.heard? a).toList.filterMap Message.request?) (l.handed? a).toList := by
  cases heard : l.heard? a with
  | none =>
    have quiet : l.handed? a = none := by
      unfold handed?
      split
      · rw [heard]
        rfl
      · rfl
    rw [quiet]
    exact .nil
  | some m =>
    obtain ⟨settings, running⟩ := listening_heard heard
    have handed : l.handed? a = (Listener.react settings l.client m).response := by
      unfold handed?
      rw [running, heard]
      rfl
    rw [handed]
    cases asked : m.request? with
    | none =>
      rw [Listener.response_react asked]
      simp [asked]
    | some r =>
      obtain rfl : m = .request r := by
        cases m with
        | request r' => cases asked; rfl
        | response r' => cases asked
        | notification n => cases asked
      obtain ⟨a, response, answered⟩ := r.exists_answered settings l.client
      rw [response]
      exact .cons answered .nil

/-- The response that is handed to the client is queued while the queue is open, and nothing else is. -/
theorem outbound_listen (l : Link) (isOpen : l.client.isQueueOpen = true) :
    (l.act (.hand .listener)).1.client.outbound =
      l.client.outbound ++ (l.handed? (.hand .listener)).toList.map fun r => .message (.response r) := by
  obtain ⟨client, toServer, isInputOpen, toClient, server, decoder, inbox, listening, isCancelled, process,
    holdsProcess⟩ := l
  cases listening with
  | waiting => exact (List.append_nil _).symm
  | stopped => exact (List.append_nil _).symm
  | running settings =>
    cases inbox with
    | cons m rest => exact Listener.outbound_dispatch settings client m isOpen
    | nil =>
      have unheard : handed? ⟨client, toServer, isInputOpen, toClient, server, decoder, [],
        .running settings, isCancelled, process, holdsProcess⟩ (.hand .listener) = none := rfl
      rw [unheard]
      simp only [act, step, listen]
      split <;> simp

theorem hand_of_handed? {a : Act} {r : Response} (h : l.handed? a = some r) : a = .hand .listener := by
  unfold handed? heard? at h
  split at h
  · split at h
    · rfl
    · cases h
  · cases h

/-- Nobody listens any more. -/
theorem silent_act (stopped : l.listening = .stopped) (a : Act) :
    l.heard? a = none ∧ l.handed? a = none ∧ (l.act a).2 = [] ∧ (l.act a).1.listening = .stopped := by
  have heard : l.heard? a = none := by
    cases h : l.heard? a with
    | none => rfl
    | some m =>
      obtain ⟨settings, running⟩ := listening_heard h
      rw [stopped] at running
      cases running
  refine ⟨heard, by simp [handed?, stopped], ?_, ?_⟩
  · cases a with
    | hand h =>
      cases h with
      | writer => cases moved : l.write <;> simp [act, step, moved]
      | server => cases moved : l.serve <;> simp [act, step, moved]
      | reader => cases moved : l.read <;> simp [act, step, moved]
      | listener => simp [act, step, listen, stopped]
    | _ => rfl
  · have moved := l.hears_act a
    rw [heard] at moved
    generalize l.taken? a = taken at moved
    generalize ear_ : (l.act a).1.ear = e at moved
    have listening : (l.act a).1.listening = e.listening := congrArg Ear.listening ear_
    rw [listening]
    cases moved with
    | still => exact stopped
    | passes => exact stopped
    | comes m own up => exact stopped
    | starts settings waiting => cases stopped.symm.trans waiting
    | stops => rfl

end Link

theorem ClientCall.ear_step (now : Nat) (l : Link) (call : ClientCall) :
    (call.step now l).1.ear = l.ear := by
  cases call with
  | ask q s => rfl
  | lookUp q s => rfl
  | greet s => rfl
  | shutDown s =>
    simp only [step]
    cases s with
    | asking s =>
      simp only [Link.shutDown]
      split <;> rfl
    | closing r =>
      simp only [Link.shutDown]
      split <;> rfl
    | flushing r deadline =>
      simp only [Link.shutDown]
      split <;> rfl
    | draining r =>
      simp only [Link.shutDown]
      split
      · split <;> rfl
      · rfl
    | reaping r deadline =>
      simp only [Link.shutDown]
      split
      · rfl
      · split <;> rfl

/-! Runs. -/

namespace Ear

/-- What the listener has taken up and what it has before it are what has come, in order. Once it has
stopped, what comes is lost. -/
structure Kept (e : Ear) (received dispatched : List Message) : Prop where
  order : dispatched ++ e.inbox <+: received.filter fun m => !m.isResponse
  all : e.listening ≠ .stopped → (received.filter fun m => !m.isResponse) = dispatched ++ e.inbox

theorem Hears.kept {e e' : Ear} {taken heard : Option Message} {received dispatched : List Message}
    (moved : e.Hears taken heard e') (h : e.Kept received dispatched) :
    e'.Kept (received ++ taken.toList) (dispatched ++ heard.toList) := by
  cases moved with
  | still => simpa using h
  | passes m past =>
    rw [Option.toList_none, List.append_nil]
    constructor
    · rw [List.filter_append]
      exact h.order.trans (List.prefix_append _ _)
    · intro up
      have response : m.isResponse = true := past.resolve_right up
      simpa [response] using h.all up
  | comes m own up =>
    have whole : ((received ++ (some m).toList).filter fun m => !m.isResponse) =
        dispatched ++ (e.inbox ++ [m]) := by
      simp [own, h.all up]
    rw [Option.toList_none, List.append_nil]
    constructor
    · exact whole ▸ List.prefix_refl _
    · intro _
      exact whole
  | hears settings m rest running =>
    subst running
    have whole := h.all nofun
    constructor
    · simp [whole]
    · intro _
      simp [whole]
  | starts settings waiting =>
    have whole := h.all (by simp [waiting])
    constructor
    · simp [whole]
    · intro _
      simp [whole]
  | stops =>
    constructor
    · simpa using (List.prefix_append dispatched e.inbox).trans h.order
    · intro up
      exact absurd rfl up

end Ear

namespace Session

/-- The acts of a run, each with the link that it finds. -/
def acts : Session → List Move → List (Link × Link.Act)
  | _, [] => []
  | s, .act a :: moves => (s.link, a) :: (s.next (.act a)).acts moves
  | s, move :: moves => (s.next move).acts moves

/-- The messages that the reader takes up in a run. -/
def received (s : Session) (moves : List Move) : List Message :=
  (s.acts moves).filterMap fun found => found.1.taken? found.2

/-- The messages that the listener takes up. -/
def dispatched (s : Session) (moves : List Move) : List Message :=
  (s.acts moves).filterMap fun found => found.1.heard? found.2

/-- The responses that the listener hands to the client. -/
def handed (s : Session) (moves : List Move) : List Response :=
  (s.acts moves).filterMap fun found => found.1.handed? found.2

def published (s : Session) (moves : List Move) : List Report :=
  (s.acts moves).flatMap fun found => (found.1.act found.2).2

variable {s : Session} {moves : List Move}

theorem acts_append (s : Session) (before after : List Move) :
    s.acts (before ++ after) = s.acts before ++ (s.run before).acts after := by
  induction before generalizing s with
  | nil => rfl
  | cons move before ih => cases move <;> simp [acts, run, ih]

/-- Only acts are heard of. -/
theorem ear_next (s : Session) {move : Move} (other : ∀ a, move ≠ .act a) :
    (s.next move).link.ear = s.link.ear := by
  cases move with
  | begin call =>
    simp only [next]
    split <;> rfl
  | turn k =>
    simp only [next]
    split
    · rfl
    · next call _ => exact ClientCall.ear_step s.now s.link call
  | act a => exact absurd rfl (other a)
  | pass time => rfl

theorem filterMap_act (f : Link × Link.Act → Option β) (s : Session) (a : Link.Act) (moves : List Move) :
    (s.acts (.act a :: moves)).filterMap f =
      (f (s.link, a)).toList ++ ((s.next (.act a)).acts moves).filterMap f := by
  cases value : f (s.link, a) <;> simp [acts, value]

/-- A move is an act, or is not heard of. -/
theorem act_or_other (move : Move) : (∃ a, move = .act a) ∨ ∀ a, move ≠ .act a := by
  cases move with
  | act a => exact .inl ⟨a, rfl⟩
  | _ => exact .inr nofun

theorem acts_other {move : Move} (other : ∀ a, move ≠ .act a) (s : Session) (moves : List Move) :
    s.acts (move :: moves) = (s.next move).acts moves := by
  cases move with
  | act a => exact absurd rfl (other a)
  | _ => rfl

theorem kept_run {xs ys : List Message} (h : s.link.ear.Kept xs ys) (moves : List Move) :
    (s.run moves).link.ear.Kept (xs ++ s.received moves) (ys ++ s.dispatched moves) := by
  induction moves generalizing s xs ys with
  | nil => simpa [received, dispatched, acts, run] using h
  | cons move moves ih =>
    unfold received dispatched
    rcases act_or_other move with ⟨a, rfl⟩ | other
    · rw [filterMap_act, filterMap_act, ← List.append_assoc, ← List.append_assoc]
      exact ih ((s.link.hears_act a).kept h)
    · rw [acts_other other]
      exact ih ((s.ear_next other).symm ▸ h)

theorem answered_run (s : Session) (moves : List Move) :
    List.Forall₂ Request.Answered ((s.dispatched moves).filterMap Message.request?) (s.handed moves) := by
  induction moves generalizing s with
  | nil => exact .nil
  | cons move moves ih =>
    unfold dispatched handed
    rcases act_or_other move with ⟨a, rfl⟩ | other
    · rw [filterMap_act, filterMap_act, List.filterMap_append]
      exact List.rel_append (s.link.answered_act a) (ih _)
    · rw [acts_other other]
      exact ih _

/-- Once nobody listens any more, nothing is taken up, answered or reported. -/
theorem silent_run (stopped : s.link.listening = .stopped) (moves : List Move) :
    s.dispatched moves = [] ∧ s.handed moves = [] ∧ s.published moves = [] := by
  induction moves generalizing s with
  | nil => exact ⟨rfl, rfl, rfl⟩
  | cons move moves ih =>
    unfold dispatched handed published
    rcases act_or_other move with ⟨a, rfl⟩ | other
    · obtain ⟨unheard, unanswered, unreported, still⟩ := s.link.silent_act stopped a
      obtain ⟨heard, answered, reported⟩ := @ih (s.next (.act a)) still
      rw [filterMap_act, filterMap_act, unheard, unanswered]
      refine ⟨heard, answered, ?_⟩
      change (s.link.act a).2 ++ (s.next (.act a)).published moves = []
      rw [unreported, reported]
      rfl
    · rw [acts_other other]
      apply ih
      exact (congrArg Ear.listening (s.ear_next other)).trans stopped

theorem listening_stop {l : Link} (started : l.listening ≠ .waiting) :
    (l.act .stopListening).1.listening = .stopped := by
  simp only [Link.act, Link.stopListening]

/-- Once the listener has been stopped nothing more is taken up, answered or reported. -/
theorem silent_after_stop {s : Session} {before : List Move} (after : List Move)
    (started : (s.run before).link.listening ≠ .waiting) :
    s.dispatched (before ++ .act .stopListening :: after) = s.dispatched before ∧
      s.handed (before ++ .act .stopListening :: after) = s.handed before ∧
      s.published (before ++ .act .stopListening :: after) = s.published before := by
  have stopped : ((s.run before).next (.act .stopListening)).link.listening = .stopped :=
    listening_stop started
  obtain ⟨heard, answered, reported⟩ := silent_run stopped after
  have unanswered : (s.run before).link.handed? .stopListening = none := by
    unfold Link.handed?
    split <;> rfl
  unfold dispatched handed published at *
  rw [acts_append]
  refine ⟨?_, ?_, ?_⟩
  · rw [List.filterMap_append, filterMap_act, heard]
    exact List.append_nil _
  · rw [List.filterMap_append, filterMap_act, answered, unanswered]
    exact List.append_nil _
  · rw [List.flatMap_append]
    change _ ++ ([] ++ List.flatMap _ _) = _
    rw [reported]
    exact List.append_nil _

/-- What a server sends of its own accord is dealt with in order, whatever else happens meanwhile and
wherever the listener is stopped. What is taken up is a first part of what came; the answers are those to
the requests in it, one for each, and each is queued while the queue is open; and once the listener has
been stopped nothing is taken up, answered or reported. -/
theorem requests_answered_in_order (now : Nat) (language : String) (config : ClientConfig) (server : Peer)
    (process : Option Invocation) (moves : List Move) :
    let s := start now language config server process
    s.dispatched moves <+: ((s.received moves).filter fun m => !m.isResponse) ∧
      List.Forall₂ Request.Answered ((s.dispatched moves).filterMap Message.request?) (s.handed moves) ∧
      (∀ l a, (l, a) ∈ s.acts moves → ∀ r ∈ l.handed? a, l.client.isQueueOpen = true →
        (l.act a).1.client.outbound = l.client.outbound ++ [.message (.response r)]) ∧
      ∀ before after, moves = before ++ .act .stopListening :: after →
        (s.run before).link.listening ≠ .waiting →
        s.dispatched moves = s.dispatched before ∧ s.handed moves = s.handed before ∧
          s.published moves = s.published before := by
  intro s
  have begun : s.link.ear.Kept [] [] := ⟨List.prefix_refl _, fun _ => rfl⟩
  have kept := kept_run begun moves
  refine ⟨(List.prefix_append _ _).trans kept.order, s.answered_run moves, ?_, ?_⟩
  · intro l a _ r handed isOpen
    obtain rfl : a = .hand .listener := Link.hand_of_handed? handed
    have queued := l.outbound_listen isOpen
    rwa [handed] at queued
  · rintro before after rfl started
    exact silent_after_stop after started

end Session

end LanguageHost
