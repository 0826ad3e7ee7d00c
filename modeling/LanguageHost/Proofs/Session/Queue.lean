import LanguageHost.Proofs.Session.Asking

/-!
What a step queues. The queue takes in at its end what an open queue takes, and the documents stay; only
calls that open and close documents change them. Queries ask, the end of a session says exit or closes, the
listener responds, and the reader queues nothing.
-/
namespace LanguageHost

/-- The last word of a session. -/
def Message.exit : Message := .notification ⟨"exit", .null⟩

/-- What is queued by queries and by the first request. -/
inductive Outbound.Asks : Outbound → Prop
  | request (q : Query) (id : Int32) : Asks (.message (q.request id))
  | cancellation (id : RequestId) : Asks (.message (Client.cancellation id))
  | initialized : Asks (.message (.notification ⟨"initialized", .obj []⟩))

/-- What a query queues is allowed. -/
structure Query.Allowed (P : Outbound → Prop) (q : Query) : Prop where
  request : ∀ id, P (.message (q.request id))
  cancellation : ∀ id, P (.message (Client.cancellation id))

theorem Query.allowed_asks (q : Query) : q.Allowed Outbound.Asks := ⟨.request q, .cancellation⟩

namespace Client

/-- The queue has taken in nothing but what is allowed, and nothing at all unless it is open. -/
structure Takes (P : Outbound → Prop) (c c' : Client) : Prop where
  isQueueOpen : c'.isQueueOpen = c.isQueueOpen
  added : ∃ added, c'.outbound = c.outbound ++ added ∧ (∀ o ∈ added, P o) ∧
    (c.isQueueOpen = false → added = [])

/-- A step that is no concern of documents, by what it queues. -/
structure Queues (P : Outbound → Prop) (c c' : Client) : Prop extends Takes P c c' where
  documents : c'.documents = c.documents

namespace Queues

variable {P Q : Outbound → Prop} {c c' c'' : Client}

theorem of_eq (isQueueOpen : c'.isQueueOpen = c.isQueueOpen) (outbound : c'.outbound = c.outbound)
    (documents : c'.documents = c.documents) : c.Queues P c' :=
  ⟨⟨isQueueOpen, [], by simp [outbound], nofun, fun _ => rfl⟩, documents⟩

theorem refl (c : Client) : c.Queues P c := of_eq rfl rfl rfl

theorem trans (h : c.Queues P c') (h' : c'.Queues P c'') : c.Queues P c'' := by
  obtain ⟨⟨queue, xs, first, fine, shut⟩, documents⟩ := h
  obtain ⟨⟨queue', ys, second, fine', shut'⟩, documents'⟩ := h'
  refine ⟨⟨queue'.trans queue, xs ++ ys, by rw [second, first, List.append_assoc], ?_, ?_⟩,
    documents'.trans documents⟩
  · intro o there
    rcases List.mem_append.mp there with there | there
    · exact fine o there
    · exact fine' o there
  · intro closed
    rw [shut closed, shut' (queue.trans closed), List.append_nil]

theorem mono (h : c.Queues P c') (weaker : ∀ o, P o → Q o) : c.Queues Q c' := by
  obtain ⟨⟨queue, added, grown, fine, shut⟩, documents⟩ := h
  exact ⟨⟨queue, added, grown, fun o there => weaker o (fine o there), shut⟩, documents⟩

theorem of_enqueue {o : Outbound} (h : c.enqueue o = .ok c') (fine : P o) : c.Queues P c' := by
  obtain ⟨isOpen, rfl⟩ := enqueue_ok h
  exact ⟨⟨rfl, [o], rfl, by simpa using fine, fun shut => by simp [isOpen] at shut⟩, rfl⟩

end Queues

/-! Calls. -/

variable {P : Outbound → Prop} {q : Query}

theorem queues_exchange (allowed : q.Allowed P) (now : Nat) (c : Client) (s : AskStage) :
    c.Queues P (c.exchange q now s).1 := by
  have asked := exchange_asked q now c s
  generalize c.exchange q now s = went at asked
  obtain ⟨c', turn⟩ := went
  cases asked with
  | sent id isOpen =>
    exact ⟨⟨rfl, _, rfl, by simpa using allowed.request id, fun shut => by simp [isOpen] at shut⟩, rfl⟩
  | told id isOpen =>
    exact ⟨⟨rfl, _, rfl, by simpa using allowed.cancellation (.number id),
      fun shut => by simp [isOpen] at shut⟩, rfl⟩
  | _ => exact .of_eq rfl rfl rfl

theorem queues_ask (allowed : q.Allowed P) (now : Nat) (c : Client) (s : AskStage) :
    c.Queues P (c.ask q now s).1 := queues_exchange allowed now c s

theorem queues_lookUp {q : CachedQuery} (allowed : q.query.Allowed P) (now : Nat) (c : Client)
    (s : LookStage) : c.Queues P (c.lookUp q now s).1 := by
  cases s with
  | fresh =>
    simp only [lookUp]
    split <;> exact .of_eq rfl rfl rfl
  | asking s =>
    have asked := queues_ask allowed now c s
    simp only [lookUp]
    split
    · next asked' =>
      rw [asked'] at asked
      exact asked.trans (.of_eq rfl rfl rfl)
    · next asked' =>
      rw [asked'] at asked
      exact asked

theorem queues_greet {s : GreetStage} (allowed : ∀ q st, s = .asking q st → q.Allowed P)
    (initialized : P (.message (.notification ⟨"initialized", .obj []⟩))) (now : Nat) (c : Client) :
    c.Queues P (c.greet now s).1 := by
  cases s with
  | fresh =>
    simp only [greet]
    split
    · exact .refl c
    · split
      · exact .refl c
      · split
        · exact .refl c
        · exact .of_eq rfl rfl rfl
  | asking q s =>
    have asked := queues_ask (allowed q s rfl) now c s
    simp only [greet]
    split
    · next asked' =>
      rw [asked'] at asked
      exact asked.trans (.of_eq rfl rfl rfl)
    · next asked' =>
      rw [asked'] at asked
      split
      · exact asked.trans (.of_eq rfl rfl rfl)
      · next told => exact (asked.trans (.of_enqueue told initialized)).trans (.of_eq rfl rfl rfl)
    · next asked' =>
      rw [asked'] at asked
      exact asked

end Client

/-! The end of a session. -/

namespace Link

/-- A successful response is taken by the call that ends the session. -/
def Acknowledged (l : Link) (now : Nat) : EndStage → Prop
  | .asking s => ∃ c r j, l.client.exchange .shutdown now s = (c, .done (.response r)) ∧
      Client.understand Query.shutdown.method Query.shutdown.result r = .ok j
  | _ => False

variable {now : Nat} {l : Link}

theorem queues_shutDown {P : Outbound → Prop} {s : EndStage} (allowed : Query.shutdown.Allowed P)
    (close : P .close) (unsaid : ¬ l.Acknowledged now s) : l.client.Queues P (l.shutDown now s).1.client := by
  cases s with
  | asking s =>
    rcases exchanged : l.client.exchange .shutdown now s with ⟨c, turn⟩
    have asked := Client.queues_exchange allowed now l.client s
    rw [exchanged] at asked
    simp only [shutDown, Client.ask, exchanged]
    cases turn with
    | wait d => exact asked
    | go s' => exact asked
    | done a =>
      simp only [Turn.lift]
      cases outcome : c.outcome .shutdown a with
      | error e => exact asked
      | ok j =>
        exfalso
        cases a with
        | response r => exact unsaid ⟨c, r, j, exchanged, outcome⟩
        | gone => cases outcome
        | late => cases outcome
  | closing r =>
    simp only [shutDown]
    split
    · next closing => exact .of_enqueue closing close
    · exact .refl _
  | flushing r deadline =>
    simp only [shutDown]
    split <;> exact .refl _
  | draining r =>
    simp only [shutDown]
    split
    · split <;> exact .of_eq rfl rfl rfl
    · exact .of_eq rfl rfl rfl
  | reaping r deadline =>
    simp only [shutDown]
    split
    · exact .refl _
    · split <;> exact .refl _

/-- Exit is said in the step in which the response is taken, and the call goes on to close. -/
theorem shutDown_acknowledged {s : EndStage} (h : l.Acknowledged now s) :
    ∃ c : Client, l.shutDown now s = ({ l with client := c.sayExit }, .go (.closing (.ok ()))) ∧
      c.isQueueOpen = l.client.isQueueOpen ∧ c.outbound = l.client.outbound ∧
      c.documents = l.client.documents := by
  cases s with
  | asking s =>
    obtain ⟨c, r, j, exchanged, understood⟩ := h
    have outcome : c.outcome .shutdown (.response r) = .ok j := understood
    refine ⟨c, ?_, ?_⟩
    · simp only [shutDown, Client.ask, exchanged, Turn.lift, outcome]
    · have asked := Client.exchange_asked .shutdown now l.client s
      rw [exchanged] at asked
      cases asked with
      | answered => exact ⟨rfl, rfl, rfl⟩
  | closing | flushing | draining | reaping => exact h.elim

theorem queues_acknowledged {s : EndStage} (h : l.Acknowledged now s) :
    l.client.Queues (· = .message .exit) (l.shutDown now s).1.client := by
  obtain ⟨c, step, isQueueOpen, outbound, documents⟩ := shutDown_acknowledged h
  have taken : l.client.Queues (· = .message .exit) c := .of_eq isQueueOpen outbound documents
  rw [step]
  simp only [Client.sayExit]
  split
  · next told => exact taken.trans (.of_enqueue told rfl)
  · exact taken

end Link

theorem ClientCall.queues_step {P : Outbound → Prop} (now : Nat) (l : Link) {call : ClientCall}
    (asks : ∀ o : Outbound, o.Asks → P o) (ends : ∀ s, call ≠ .shutDown s) :
    l.client.Queues P (call.step now l).1.client := by
  have allowed (q : Query) : q.Allowed P :=
    ⟨fun id => asks _ (.request q id), fun id => asks _ (.cancellation id)⟩
  cases call with
  | ask q s => exact Client.queues_ask (allowed q) now l.client s
  | lookUp q s => exact Client.queues_lookUp (allowed q.query) now l.client s
  | greet s => exact Client.queues_greet (fun q _ _ => allowed q) (asks _ .initialized) now l.client
  | shutDown s => exact absurd rfl (ends s)

/-! The listener and the reader. -/

namespace Listener

/-- Nothing but responses is queued by the listener. -/
def IsResponse (o : Outbound) : Prop := ∃ r, o = .message (.response r)

theorem queues_react (settings : Option Json) (c : Client) (m : Message) {P : Outbound → Prop} :
    c.Queues P (react settings c m).client := by
  cases m with
  | request r =>
    simp only [react, onRequest]
    split
    · exact .refl c
    · exact .refl c
    · next method _ _ => cases method <;> exact .of_eq rfl rfl rfl
  | notification n =>
    simp only [react, onNotification]
    split <;> exact .of_eq rfl rfl rfl
  | response r => exact .refl c

theorem queues_dispatch (settings : Option Json) (c : Client) (m : Message) :
    c.Queues IsResponse (dispatch settings c m).1 := by
  have reacted := queues_react settings c m (P := IsResponse)
  unfold dispatch
  generalize react settings c m = r at reacted ⊢
  obtain ⟨c', reports, response⟩ := r
  cases response with
  | none => exact reacted
  | some response =>
    dsimp only
    split
    · next told => exact reacted.trans (.of_enqueue told ⟨response, rfl⟩)
    · exact reacted

end Listener

namespace Link

variable {P : Outbound → Prop} {l l' : Link}

theorem queues_accept (c : Client) (r : Response) : c.Queues P (c.accept r) := by
  unfold Client.accept
  split
  · exact .of_eq rfl rfl rfl
  · exact .refl c

theorem queues_route (l : Link) (m : Message) : l.client.Queues P (l.route m).client := by
  obtain ⟨r, -, accepted⟩ | ⟨-, ⟨-, left⟩ | ⟨-, entered⟩⟩ := l.route_cases m
  · rw [accepted]
    exact queues_accept l.client r
  · rw [left]
    exact .refl _
  · rw [entered]
    exact .refl _

theorem queues_read (h : l.Reads l') : l.client.Queues P l'.client := by
  cases h with
  | ends d => exact .of_eq rfl rfl rfl
  | routes m d => exact queues_route { l with decoder := d } m
  | takes d => exact .refl _

theorem queues_listen {reports : List Report} (h : l.Listens l' reports) :
    l.client.Queues Listener.IsResponse l'.client := by
  cases h with
  | hears settings m rest => exact Listener.queues_dispatch settings l.client m
  | ends settings => exact .refl _

end Link

end LanguageHost
