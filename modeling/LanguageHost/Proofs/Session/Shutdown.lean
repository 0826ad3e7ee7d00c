import LanguageHost.Proofs.Fleet.Links
import LanguageHost.Proofs.Session.Wire

/-!
The end of a session, among everything else that goes on. A hand that is told to stop may take one step more
before it notices, so runs are made of strides: moves, and such steps. Whatever their order, the server is
sent a beginning of what was accepted, exit is said when the server has agreed to end and at no other time,
and whoever comes after the end is turned away.
-/
namespace LanguageHost

/-- A message as it is written. -/
def Message.frame (m : Message) : Octets := Frame.encode m.body

namespace Link

/-- The step of a hand that has been told to stop and has not noticed yet. -/
def overrun (l : Link) (hand : Hand) : Link :=
  if l.client.isClosed then
    match ({ l with client := { l.client with isClosed := false } } : Link).step hand with
    | some (l', _) => { l' with client := l'.client.disconnect }
    | none => l
  else l

theorem passes_overrun {P : Outbound → Prop} (responses : ∀ o, Listener.IsResponse o → P o) (l : Link)
    (hand : Hand) : l.Passes P (l.overrun hand) := by
  unfold overrun
  split
  · split
    · next moved =>
      cases passes_step responses moved with
      | accepts takes unwritten => exact .accepts ⟨takes.isQueueOpen, takes.added⟩ unwritten
      | writes m before after front written => exact .writes m before after front written
      | shuts shut forgotten unwritten => exact .shuts shut forgotten unwritten
    · exact .refl l
  · exact .refl l

theorem continues_overrun (l : Link) (hand : Hand) : l.Continues (l.overrun hand) := by
  unfold overrun
  split
  · split
    · next moved =>
      have stirred := (stirs_step moved).continues
      exact ⟨⟨stirred.client.language, fun _ => rfl, stirred.client.queue, stirred.client.reading,
        stirred.client.config⟩, stirred.released⟩
    · exact .refl l
  · exact .refl l

end Link

namespace Session

inductive Stride where
  | move (m : Move)
  | overrun (hand : Hand)

def stride (s : Session) : Stride → Session
  | .move m => s.next m
  | .overrun hand => { s with link := s.link.overrun hand }

def course (s : Session) (strides : List Stride) : Session := strides.foldl stride s

/-- What the queue accepts on a course, in order. -/
def accepted : Session → List Stride → List Outbound
  | _, [] => []
  | s, x :: xs => s.link.client.accepted (s.stride x).link.client ++ (s.stride x).accepted xs

/-- What is written on a course, in order. -/
def written : Session → List Stride → List Message
  | _, [] => []
  | s, x :: xs => s.link.written (s.stride x).link ++ (s.stride x).written xs

theorem link_turn {s : Session} {k : Nat} {call : ClientCall} (there : s.calls k = some call) :
    (s.stride (.move (.turn k))).link = (call.step s.now s.link).1 := by
  rw [stride, next, there]
  rfl

/-- The frames that are written on a course, in order. -/
def frames (s : Session) (strides : List Stride) : List Octets := (s.written strides).map Message.frame

/-! Exit. -/

/-- The turn of a call is the one in which it takes a successful response to shutdown. -/
def Acknowledges (s : Session) (k : Nat) : Prop :=
  ∃ st, s.calls k = some (.shutDown st) ∧ s.link.Acknowledged s.now st

/-- The stride is one of a call that takes a successful response to shutdown, or somebody else says exit. -/
def SaysExit (s : Session) (x : Stride) : Prop :=
  (∃ k, x = .move (.turn k) ∧ s.Acknowledges k) ∨ x = .move (.act (.notify "exit" .null))

/-- What a stride may queue: responses, what is told of documents, what it is asked to, and what the turn of a
call does. -/
theorem passes_stride_of {P : Outbound → Prop} (s : Session) (x : Stride)
    (responses : ∀ o, Listener.IsResponse o → P o)
    (documents : ∀ params, P (.message (.notification ⟨"textDocument/didOpen", params⟩)) ∧
      P (.message (.notification ⟨"textDocument/didClose", params⟩)))
    (notices : ∀ method params, x = .move (.act (.notify method params)) →
      P (.message (.notification ⟨method, params⟩)))
    (turns : ∀ k call, x = .move (.turn k) → s.calls k = some call →
      s.link.client.Takes P (call.step s.now s.link).1.client) :
    s.link.Passes P (s.stride x).link := by
  cases x with
  | overrun hand => exact Link.passes_overrun responses s.link hand
  | move m =>
    cases m with
    | begin call =>
      simp only [stride, next]
      split <;> exact .refl _
    | pass time => exact .refl _
    | act a => exact s.link.passes_act a responses documents fun method params said => notices _ _ (said ▸ rfl)
    | turn k =>
      simp only [stride, next]
      split
      · exact .refl _
      · next call there => exact .accepts (turns k call rfl there) (Link.unwritten_step s.now s.link call)

theorem passes_stride (s : Session) (x : Stride) :
    s.link.Passes (fun o => o = .message .exit → s.SaysExit x) (s.stride x).link := by
  have other {o : Outbound} (h : o ≠ .message .exit) : o = .message .exit → s.SaysExit x := (absurd · h)
  refine s.passes_stride_of x ?_ (fun params => ⟨?_, ?_⟩) ?_ ?_
  · rintro o ⟨r, rfl⟩
    exact other (by rintro ⟨⟩)
  · exact other (Outbound.notification_ne_exit (by decide) params)
  · exact other (Outbound.notification_ne_exit (by decide) params)
  · rintro method params said ⟨⟩
    exact .inr said
  · rintro k call rfl there
    refine Client.Queues.toTakes ?_
    by_cases ends : ∃ st, call = .shutDown st
    · obtain ⟨st, rfl⟩ := ends
      by_cases said : s.link.Acknowledged s.now st
      · exact (Link.queues_acknowledged said).mono fun o _ _ => .inl ⟨k, rfl, st, there, said⟩
      · have asks := Query.shutdown.allowed_asks
        exact Link.queues_shutDown ⟨fun id => other (asks.request id).not_exit,
          fun id => other (asks.cancellation id).not_exit⟩ (other (by rintro ⟨⟩)) said
    · refine ClientCall.queues_step s.now s.link (fun o asks => other asks.not_exit) fun st same => ?_
      exact ends ⟨st, same⟩

/-- Exit is accepted just in the stride in which the response is taken, while the queue is open. -/
theorem exit_accepted_iff (s : Session) (x : Stride) :
    .message .exit ∈ s.link.client.accepted (s.stride x).link.client ↔
      s.link.client.isQueueOpen = true ∧ s.SaysExit x := by
  constructor
  · intro there
    refine ⟨?_, (s.passes_stride x).mem_accepted there rfl⟩
    by_contra shut
    rw [(s.passes_stride x).accepted_of_shut (by simpa using shut)] at there
    cases there
  · rintro ⟨isOpen, ⟨k, rfl, st, there, said⟩ | rfl⟩
    · have taken := Link.accepted_acknowledged said
      rw [if_pos isOpen] at taken
      rw [link_turn there]
      exact taken ▸ List.mem_singleton_self _
    · have taken := s.link.client.accepted_enqueue (.message .exit)
      rw [if_pos isOpen] at taken
      have step : (s.stride (.move (.act (.notify "exit" .null)))).link.client =
          (s.link.client.enqueue (.message .exit)).toOption.getD s.link.client := by
        simp only [stride, next, Link.act, Client.notify, Client.send, Message.exit]
        cases s.link.client.enqueue (.message (.notification ⟨"exit", .null⟩)) <;> rfl
      rw [step, taken]
      exact List.mem_singleton_self _

/-! The order on the wire. -/

/-- What has been written is a beginning of what was accepted, and the rest is in the queue while that is
open. -/
structure Wired (accepted : List Outbound) (written : List Message) (c : Client) : Prop where
  inOrder : written.map .message <+: accepted
  waiting : c.isQueueOpen = true → accepted = written.map .message ++ c.outbound

theorem Wired.passes {accepted : List Outbound} {written : List Message} {P : Outbound → Prop}
    {l l' : Link} (h : Wired accepted written l.client) (moved : l.Passes P l') :
    Wired (accepted ++ l.client.accepted l'.client) (written ++ l.written l') l'.client := by
  cases moved with
  | accepts takes unwritten =>
    rw [unwritten, List.append_nil]
    refine ⟨h.inOrder.trans (List.prefix_append _ _), fun isOpen => ?_⟩
    rw [h.waiting (takes.isQueueOpen ▸ isOpen), List.append_assoc, ← takes.append_accepted]
  | writes m before after front wrote =>
    have whole : accepted = (written ++ [m]).map .message ++ l'.client.outbound := by
      rw [h.waiting before, front, List.map_append, List.append_assoc]
      rfl
    rw [wrote, Client.accepted_of_shorter (by simp [front]), List.append_nil]
    exact ⟨whole ▸ List.prefix_append _ _, fun _ => whole⟩
  | shuts shut forgotten unwritten =>
    rw [unwritten, List.append_nil, Client.accepted_of_shorter (by simp [forgotten]), List.append_nil]
    exact ⟨h.inOrder, fun isOpen => by simp [shut] at isOpen⟩

theorem Wired.course {accepted : List Outbound} {written : List Message} {s : Session}
    (h : Wired accepted written s.link.client) (strides : List Stride) :
    Wired (accepted ++ s.accepted strides) (written ++ s.written strides)
      (s.course strides).link.client := by
  induction strides generalizing s accepted written with
  | nil => simpa [Session.accepted, Session.written, Session.course] using h
  | cons x xs ih =>
    have rest := ih (h.passes (s.passes_stride x))
    rwa [List.append_assoc, List.append_assoc] at rest

/-! The end. -/

theorem continues_stride (s : Session) (x : Stride) : s.link.Continues (s.stride x).link := by
  cases x with
  | overrun hand => exact s.link.continues_overrun hand
  | move m =>
    cases m with
    | begin call =>
      simp only [stride, next]
      split <;> exact .refl _
    | pass time => exact .refl _
    | act a => exact (s.link.stirs_act a).continues
    | turn k =>
      simp only [stride, next]
      split
      · exact .refl _
      · next call _ =>
        have moved := (ClientCall.steps s.now s.link call).continues
        cases call with
        | ask | lookUp | greet => exact .of_client moved
        | shutDown st => exact s.link.continues_shutDown s.now st

theorem continues_course (s : Session) (strides : List Stride) :
    s.link.Continues (s.course strides).link := by
  induction strides generalizing s with
  | nil => exact .refl _
  | cons x xs ih => exact (s.continues_stride x).trans (ih (s.stride x))

/-- What a stride makes of a call: it stays as it is, begins, or takes its turn. -/
theorem call_of_stride {s : Session} {x : Stride} {k : Nat} {call : ClientCall}
    (there : (s.stride x).calls k = some call) :
    s.calls k = some call ∨
      (k = s.tickets ∧ (s.stride x).tickets = s.tickets + 1 ∧ call.isFresh = true ∧
        x = .move (.begin call)) ∨
      ∃ before, s.calls k = some before ∧ (s.stride x).link = (before.step s.now s.link).1 ∧
        (before.step s.now s.link).2.rest? before = some call := by
  cases x with
  | overrun hand => exact .inl there
  | move m =>
    cases m with
    | begin new =>
      simp only [stride, next] at there ⊢
      split at there
      · next fresh =>
        rw [if_pos fresh]
        by_cases same : k = s.tickets
        · simp only [same, Function.update_self, Option.some.injEq] at there
          exact .inr (.inl ⟨same, rfl, there ▸ fresh, there ▸ rfl⟩)
        · simp only [Function.update_of_ne same] at there
          exact .inl there
      · exact .inl there
    | pass time => exact .inl there
    | act a => exact .inl there
    | turn j =>
      simp only [stride, next] at there ⊢
      split at there
      · exact .inl there
      · next before known =>
        by_cases same : k = j
        · subst same
          simp only [turned, Function.update_self] at there
          exact .inr (.inr ⟨before, known, rfl, there⟩)
        · simp only [turned, Function.update_of_ne same] at there
          exact .inl there

theorem tickets_stride (s : Session) (x : Stride) : s.tickets ≤ (s.stride x).tickets := by
  cases x with
  | overrun hand => exact Nat.le_refl _
  | move m =>
    cases m with
    | begin call =>
      simp only [stride, next]
      split
      · exact Nat.le_succ _
      · exact Nat.le_refl _
    | turn k =>
      simp only [stride, next]
      split <;> exact Nat.le_refl _
    | act a => exact Nat.le_refl _
    | pass time => exact Nat.le_refl _

/-- Only the end of a session goes on as one. -/
theorem shutDown_of_rest {now : Nat} {l : Link} {call : ClientCall} {st : EndStage}
    (rest : (call.step now l).2.rest? call = some (.shutDown st)) :
    ∃ st', call = .shutDown st' ∧ (l.shutDown now st').2.rest? st' = some st := by
  cases call with
  | ask q s =>
    obtain ⟨s', -, other⟩ := Option.map_eq_some_iff.mp ((Turn.rest?_lift _ _ s _).symm.trans rest)
    cases other
  | lookUp q s =>
    obtain ⟨s', -, other⟩ := Option.map_eq_some_iff.mp ((Turn.rest?_lift _ _ s _).symm.trans rest)
    cases other
  | greet s =>
    obtain ⟨s', -, other⟩ := Option.map_eq_some_iff.mp ((Turn.rest?_lift _ _ s _).symm.trans rest)
    cases other
  | shutDown s =>
    obtain ⟨s', next, same⟩ := Option.map_eq_some_iff.mp ((Turn.rest?_lift _ _ s _).symm.trans rest)
    cases same
    exact ⟨s, rfl, next⟩

/-- What holds of the calls of every course. -/
structure Kept (s : Session) : Prop where
  begun : ∀ k call, s.calls k = some call → k < s.tickets
  reaping : ∀ k st, s.calls k = some (.shutDown st) → st.IsReaping → s.link.IsGone

theorem Kept.stride {s : Session} (h : s.Kept) (x : Stride) : (s.stride x).Kept := by
  constructor
  · intro k call there
    rcases call_of_stride there with before | ⟨rfl, tickets, -⟩ | ⟨before, known, -⟩
    · exact Nat.lt_of_lt_of_le (h.begun k call before) (s.tickets_stride x)
    · exact tickets ▸ Nat.lt_succ_self _
    · exact Nat.lt_of_lt_of_le (h.begun k before known) (s.tickets_stride x)
  · intro k st there reaping
    rcases call_of_stride there with before | ⟨-, -, fresh, -⟩ | ⟨before, known, link, rest⟩
    · exact (s.continues_stride x).isGone (h.reaping k st before reaping)
    · cases st with
      | asking | closing | flushing | draining => cases reaping
      | reaping => cases fresh
    · obtain ⟨st', rfl, next⟩ := shutDown_of_rest rest
      rw [link]
      cases turn : (s.link.shutDown s.now st').2 with
      | wait d =>
        rw [turn] at next
        cases next
        exact (s.link.continues_shutDown s.now st).isGone (h.reaping k st known reaping)
      | go st'' =>
        rw [turn] at next
        cases next
        exact Link.isGone_of_reaping turn reaping
      | done r =>
        rw [turn] at next
        cases next

theorem Kept.course {s : Session} (h : s.Kept) (strides : List Stride) : (s.course strides).Kept := by
  induction strides generalizing s with
  | nil => exact h
  | cons x xs ih => exact ih (h.stride x)

/-- The turn of a call ends the session. -/
def Ends (s : Session) (k : Nat) : Prop :=
  ∃ st r, s.calls k = some (.shutDown st) ∧ (s.link.shutDown s.now st).2 = .done r

/-- Whether the next turn of the call is its last. -/
def endsNext (s : Session) (k : Nat) : Bool :=
  match s.calls k with
  | some (.shutDown st) =>
    match (s.link.shutDown s.now st).2 with
    | .done _ => true
    | _ => false
  | _ => false

theorem ends_of_endsNext {s : Session} {k : Nat} (h : s.endsNext k = true) : s.Ends k := by
  unfold endsNext at h
  split at h
  · next st known =>
    split at h
    · next r ended => exact ⟨st, r, known, ended⟩
    · cases h
  · cases h

theorem Kept.isGone_of_ends {s : Session} (h : s.Kept) {k : Nat} (ends : s.Ends k) :
    (s.stride (.move (.turn k))).link.IsGone := by
  obtain ⟨st, r, known, done⟩ := ends
  rw [link_turn known]
  exact Link.isGone_of_done done (h.reaping k st known)

end Session

/-! Whoever comes after the end. -/

namespace EndStage

/-- How much of the end is still to come. -/
def rank : EndStage → Nat
  | .asking _ => 4
  | .closing _ => 3
  | .flushing _ _ => 2
  | .draining _ => 1
  | .reaping _ _ => 0

/-- Nothing has been asked, or the question was turned away. -/
def Refused (e : Error) : EndStage → Prop
  | .asking s => s = .fresh
  | .closing r | .flushing r _ | .draining r | .reaping r _ => r = .error e

end EndStage

namespace ClientCall

/-- The call has not got past the connection. -/
def Refused (e : Error) : ClientCall → Prop
  | .ask _ s => s = .fresh
  | .lookUp _ s => s = .fresh ∨ s = .asking .fresh
  | .greet s => s = .fresh ∨ ∃ q, s = .asking q .fresh
  | .shutDown s => s.Refused e

theorem refused_of_isFresh {call : ClientCall} (h : call.isFresh = true) (e : Error) : call.Refused e := by
  unfold isFresh at h
  split at h
  · exact rfl
  · exact .inl rfl
  · exact .inl rfl
  · exact rfl
  · cases h

end ClientCall

/-- The turn leads towards a failure: it fails, goes on to a stage nearer to it, or waits for a time to
come. -/
def EndStage.Leads (s : EndStage) (e : Error) (now : Nat) : Turn EndStage (Except Error Unit) → Prop
  | .wait d => ∃ t ∈ d, now < t
  | .go s' => s'.rank < s.rank ∧ s'.Refused e
  | .done r => r = .error e

theorem EndStage.Leads.refused {s s' : EndStage} {e : Error} {now : Nat}
    {turn : Turn EndStage (Except Error Unit)} (leads : s.Leads e now turn) (h : s.Refused e)
    (rest : turn.rest? s = some s') : s'.Refused e := by
  cases turn with
  | wait d =>
    cases rest
    exact h
  | go s'' =>
    cases rest
    exact leads.2
  | done r => cases rest

/-- A request fails at once, and the end of a session at last. -/
def ClientCall.Fails (e : Error) (now : Nat) (l : Link) : ClientCall → Prop
  | .ask q s => (ClientCall.step now l (.ask q s)).2 = .done (.answered (.error e))
  | .shutDown s => s.Leads e now (l.shutDown now s).2
  | _ => True

theorem Client.exchange_barred {c : Client} (closed : c.isClosed = true) (q : Query) (now : Nat) :
    c.exchange q now .fresh = (c, .done .gone) := by
  simp [exchange, closed]

namespace Link

variable {now : Nat} {l : Link}

theorem shutDown_refused (closed : l.client.isClosed = true) {s : EndStage}
    (h : s.Refused l.client.gone) :
    l.client.Queues (· = .close) (l.shutDown now s).1.client ∧
      s.Leads l.client.gone now (l.shutDown now s).2 := by
  have later {s : EndStage} {t : Nat} (early : ¬ t ≤ now) : s.Leads l.client.gone now (.wait (some t)) :=
    ⟨t, rfl, Nat.lt_of_not_le early⟩
  cases s with
  | asking s =>
    obtain rfl : s = .fresh := h
    simp only [shutDown, Client.ask, Client.exchange_barred closed, Turn.lift, Client.outcome]
    exact ⟨.refl _, Nat.lt_succ_self 3, rfl⟩
  | closing r =>
    simp only [shutDown]
    split
    · next closing => exact ⟨.of_enqueue closing rfl, Nat.lt_succ_self 2, h⟩
    · exact ⟨.refl _, Nat.lt_of_sub_eq_succ rfl, h⟩
  | flushing r deadline =>
    simp only [shutDown]
    split
    · exact ⟨.refl _, Nat.lt_succ_self 1, h⟩
    · next waits =>
      rw [Bool.or_eq_true, not_or, decide_eq_true_eq] at waits
      exact ⟨.refl _, later waits.2⟩
  | draining r =>
    simp only [shutDown]
    split
    · split
      · exact ⟨.of_eq rfl rfl rfl, Nat.lt_succ_self 0, h⟩
      · exact ⟨.of_eq rfl rfl rfl, h⟩
    · next waits =>
      rw [Bool.or_eq_true, not_or, decide_eq_true_eq] at waits
      exact ⟨.of_eq rfl rfl rfl, later waits.2⟩
  | reaping r deadline =>
    simp only [shutDown]
    split
    · exact ⟨.refl _, h⟩
    · split
      · exact ⟨.refl _, h⟩
      · next early => exact ⟨.refl _, later early⟩

end Link

namespace ClientCall

variable {now : Nat} {l : Link}

/-- A call that was refused goes on so, and queues no message. -/
theorem step_refused (closed : l.client.isClosed = true) {call : ClientCall}
    (h : call.Refused l.client.gone) :
    l.client.Queues (· = .close) (call.step now l).1.client ∧ call.Fails l.client.gone now l ∧
      ∀ call', (call.step now l).2.rest? call = some call' → call'.Refused l.client.gone := by
  have ended : ∀ call', (none : Option ClientCall) = some call' → call'.Refused l.client.gone := by
    rintro call' ⟨⟩
  cases call with
  | ask q s =>
    obtain rfl : s = .fresh := h
    simp only [Fails, step, Link.onClient, Client.ask, Client.exchange_barred closed, Turn.lift,
      Client.outcome, Turn.rest?]
    exact ⟨.refl _, trivial, ended⟩
  | lookUp q s =>
    simp only [Fails, step, Link.onClient]
    rcases h with rfl | rfl
    · simp only [Client.lookUp]
      split
      · exact ⟨.of_eq rfl rfl rfl, trivial, ended⟩
      · refine ⟨.of_eq rfl rfl rfl, trivial, ?_⟩
        rintro call' ⟨⟩
        exact .inr rfl
    · simp only [Client.lookUp, Client.ask, Client.exchange_barred closed, Turn.lift, Client.outcome]
      exact ⟨.refl _, trivial, ended⟩
  | greet s =>
    simp only [Fails, step, Link.onClient]
    rcases h with rfl | ⟨q, rfl⟩
    · simp only [Client.greet]
      split
      · exact ⟨.refl _, trivial, ended⟩
      · split
        · refine ⟨.refl _, trivial, ?_⟩
          rintro call' ⟨⟩
          exact .inl rfl
        · split
          · exact ⟨.refl _, trivial, ended⟩
          · next q _ =>
            refine ⟨.of_eq rfl rfl rfl, trivial, ?_⟩
            rintro call' ⟨⟩
            exact .inr ⟨q, rfl⟩
    · simp only [Client.greet, Client.ask, Client.exchange_barred closed, Turn.lift, Client.outcome]
      exact ⟨.of_eq rfl rfl rfl, trivial, ended⟩
  | shutDown s =>
    obtain ⟨queues, leads⟩ := Link.shutDown_refused closed h
    refine ⟨queues, leads, fun call' rest => ?_⟩
    have later : ((l.shutDown now s).2.rest? s).map ClientCall.shutDown = some call' :=
      (Turn.rest?_lift _ _ s _).symm.trans rest
    obtain ⟨s', next, rfl⟩ := Option.map_eq_some_iff.mp later
    exact leads.refused h next

end ClientCall

namespace Session

/-- The connection is gone, and the calls from a ticket on have not got past it. -/
structure Refuses (s : Session) (first : Nat) (e : Error) : Prop where
  gone : s.link.IsGone
  error : s.link.client.gone = e
  tickets : first ≤ s.tickets
  calls : ∀ k call, first ≤ k → s.calls k = some call → call.Refused e

variable {s : Session} {first : Nat} {e : Error}

theorem Refuses.stride (h : s.Refuses first e) (x : Stride) : (s.stride x).Refuses first e := by
  have continues := s.continues_stride x
  refine ⟨continues.isGone h.gone, ?_, Nat.le_trans h.tickets (s.tickets_stride x), ?_⟩
  · rw [← h.error, Client.gone, Client.gone, continues.client.language]
  · intro k call late there
    rcases call_of_stride there with before | ⟨-, -, fresh, -⟩ | ⟨before, known, -, rest⟩
    · exact h.calls k call late before
    · exact ClientCall.refused_of_isFresh fresh e
    · have refused := h.error ▸ h.calls k before late known
      exact h.error ▸ (ClientCall.step_refused h.gone.1 refused).2.2 call rest

theorem Refuses.course (h : s.Refuses first e) (strides : List Stride) :
    (s.course strides).Refuses first e := by
  induction strides generalizing s with
  | nil => exact h
  | cons x xs ih => exact ih (h.stride x)

/-- A call that comes after the end fails, and sends nothing. -/
theorem Refuses.fails (h : s.Refuses first e) {k : Nat} {call : ClientCall} (late : first ≤ k)
    (there : s.calls k = some call) :
    call.Fails e s.now s.link ∧
      ∀ m, .message m ∉ s.link.client.accepted (s.stride (.move (.turn k))).link.client := by
  have refused := h.error ▸ h.calls k call late there
  obtain ⟨queues, fails, -⟩ : s.link.client.Queues (· = .close) (call.step s.now s.link).1.client ∧
      call.Fails s.link.client.gone s.now s.link ∧ _ := ClientCall.step_refused h.gone.1 refused
  refine ⟨h.error ▸ fails, fun m taken => ?_⟩
  rw [link_turn there] at taken
  cases queues.mem_accepted taken

theorem Kept.refuses (h : s.Kept) {k : Nat} (ends : s.Ends k) :
    (s.stride (.move (.turn k))).Refuses (s.stride (.move (.turn k))).tickets s.link.client.gone := by
  refine ⟨h.isGone_of_ends ends, ?_, Nat.le_refl _, ?_⟩
  · rw [Client.gone, Client.gone, (s.continues_stride _).client.language]
  · intro j call late there
    exact absurd ((h.stride _).begun j call there) (Nat.not_lt_of_le late)

/-- On every course of a client the frames written are those of a beginning of what its queue has accepted,
and so of nothing that came behind a word to close. Exit is accepted, while the queue is open, in the very
stride in which a call takes a successful response to shutdown, and in no other unless somebody says it for
himself. Once a call has ended the session the connection is gone and the process is not held, and so it
stays; every later request or end of a session fails for that, and no later call sends anything. -/
theorem orderly_shutdown (now : Nat) (language : String) (config : ClientConfig) (server : Peer)
    (process : Option Invocation) (strides : List Stride) :
    let begun := start now language config server process
    let s := begun.course strides
    (∃ sent : List Message, sent.map .message <+: begun.accepted strides ∧
      begun.frames strides = sent.map Message.frame) ∧
    (∀ x, .message .exit ∈ s.link.client.accepted (s.stride x).link.client ↔
      s.link.client.isQueueOpen = true ∧ s.SaysExit x) ∧
    ∀ k, s.Ends k → ∀ later,
      let ended := s.stride (.move (.turn k))
      let s' := ended.course later
      s'.link.IsGone ∧ ∀ j call, ended.tickets ≤ j → s'.calls j = some call →
        call.Fails (.crashed language) s'.now s'.link ∧
          ∀ m, .message m ∉ s'.link.client.accepted (s'.stride (.move (.turn j))).link.client := by
  intro begun s
  have wired : Wired [] [] begun.link.client := ⟨List.prefix_rfl, fun _ => rfl⟩
  have idle : begun.Kept := by
    constructor
    · intro k call there
      cases there
    · intro k st there
      cases there
  have kept : s.Kept := idle.course strides
  refine ⟨⟨_, (wired.course strides).inOrder, rfl⟩, s.exit_accepted_iff, fun k ends later => ?_⟩
  have refuses := (kept.refuses ends).course later
  have error : s.link.client.gone = .crashed language := by
    rw [Client.gone, (begun.continues_course strides).client.language]
    rfl
  rw [error] at refuses
  exact ⟨refuses.gone, fun j call late there => refuses.fails late there⟩

/-- A call is at the point of asking the server to end. -/
def asking : List Stride :=
  .move (.begin (.shutDown .fresh)) :: List.replicate 4 (.move (.turn 0)) ++ [.move (.act (.hand .writer))]

/-- The server agrees. -/
def agreed : List Stride :=
  asking ++ [.move (.act (.emit (Peer.wire (.number 1) [("result", .null)]))),
    .move (.act (.hand .reader)), .move (.act (.hand .reader))]

/-- The server goes instead, and the call is at its last turn. -/
def deserted : List Stride :=
  asking ++ [.move (.act .serverEnds), .move (.act (.hand .reader)), .move (.turn 0), .move (.turn 0),
    .overrun .writer, .move (.turn 0)]

theorem acknowledges_agreed {s : Session}
    (same : (start 0 "x" ⟨⟨"/"⟩, [], none, 9⟩ (.ofScript .empty) none).course agreed = s) :
    s.link.client.isQueueOpen = true ∧ s.Acknowledges 0 := by
  have read : (s.link.client.isQueueOpen,
      s.link.client.arrived.map fun r => (r.id, r.result.isNone, r.error.isNone)) =
        (true, [(.number 1, true, true)]) := by
    subst same
    decide +kernel
  obtain ⟨isOpen, arrived⟩ := Prod.mk.inj read
  obtain ⟨⟨id, result, error⟩, rest, split, same', empty⟩ := List.map_eq_cons_iff.mp arrived
  cases List.map_eq_nil_iff.mp empty
  obtain ⟨rfl, noResult, noError⟩ : id = .number 1 ∧ result.isNone = true ∧ error.isNone = true := by
    simpa using same'
  cases Option.isNone_iff_eq_none.mp noResult
  cases Option.isNone_iff_eq_none.mp noError
  refine ⟨isOpen, .asking (.waiting 1 9), by subst same; rfl, ?_⟩
  refine ⟨{ s.link.client with arrived := [] }, ⟨.number 1, none, none⟩, .null, ?_, ?_⟩
  · simp [Client.exchange, Client.take?, split]
  · simp [Client.understand, Query.shutdown, Shape.read?, Shape.readFrom]

theorem ends_deserted {s : Session}
    (same : (start 0 "x" ⟨⟨"/"⟩, [], none, 9⟩ (.ofScript .empty) none).course deserted = s) :
    s.Ends 0 := by
  apply ends_of_endsNext
  subst same
  decide +kernel

/-- One server agrees and is told to exit, the other is gone, and who comes later is turned away. -/
theorem orderly_shutdown_deserted :
    let begun := start 0 "x" ⟨⟨"/"⟩, [], none, 9⟩ (.ofScript .empty) none
    let request : ClientCall := .ask .shutdown .fresh
    (∃ s, begun.course agreed = s ∧
      .message .exit ∈ s.link.client.accepted (s.stride (.move (.turn 0))).link.client) ∧
    ∃ s t, begun.course deserted = s ∧ s.Ends 0 ∧
      (s.stride (.move (.turn 0))).course [.move (.begin request)] = t ∧
      t.link.IsGone ∧ request.Fails (.crashed "x") t.now t.link := by
  intro begun request
  constructor
  · obtain ⟨s, same⟩ : ∃ s, begun.course agreed = s := ⟨_, rfl⟩
    obtain ⟨isOpen, acknowledged⟩ := acknowledges_agreed same
    obtain ⟨-, said, -⟩ := orderly_shutdown 0 "x" ⟨⟨"/"⟩, [], none, 9⟩ (.ofScript .empty) none agreed
    rw [same] at said
    exact ⟨s, same, (said _).mpr ⟨isOpen, .inl ⟨0, rfl, acknowledged⟩⟩⟩
  · obtain ⟨s, same⟩ : ∃ s, begun.course deserted = s := ⟨_, rfl⟩
    obtain ⟨-, -, after⟩ := orderly_shutdown 0 "x" ⟨⟨"/"⟩, [], none, 9⟩ (.ofScript .empty) none deserted
    rw [same] at after
    have ends := ends_deserted same
    obtain ⟨gone, fails⟩ := after 0 ends [.move (.begin request)]
    have begins : ((s.stride (.move (.turn 0))).course [.move (.begin request)]).calls
        (s.stride (.move (.turn 0))).tickets = some request := by
      simp [course, stride, next, request, ClientCall.isFresh]
    exact ⟨s, _, same, ends, rfl, gone, (fails _ _ (Nat.le_refl _) begins).1⟩

end Session

end LanguageHost
