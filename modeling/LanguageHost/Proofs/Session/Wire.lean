import LanguageHost.Proofs.Session.Queue
import LanguageHost.Proofs.Session.Run

/-!
What is written to the server. The queue takes in at its end what an open queue takes, the writer takes from
its front, and it stops for good at the first word that nothing more will come. So whatever has been written
is a beginning of what the queue has accepted.
-/
namespace LanguageHost

theorem Outbound.notification_ne_exit {method : String} (other : method ≠ "exit") (params : Json) :
    Outbound.message (.notification ⟨method, params⟩) ≠ .message .exit := by
  intro same
  injection same with same
  injection same with same
  injection same with methods
  exact other methods

theorem Outbound.Asks.not_exit {o : Outbound} (h : o.Asks) : o ≠ .message .exit := by
  cases h with
  | request q id => nofun
  | cancellation id => exact Outbound.notification_ne_exit (by decide) _
  | initialized => exact Outbound.notification_ne_exit (by decide) _

/-! What a step accepts. -/

namespace Client

/-- What the queue has accepted between two states. -/
def accepted (c c' : Client) : List Outbound := c'.outbound.drop c.outbound.length

variable {P : Outbound → Prop} {c c' : Client}

theorem Takes.mem_accepted (h : c.Takes P c') {o : Outbound} (there : o ∈ c.accepted c') : P o := by
  obtain ⟨-, added, grown, fine, -⟩ := h
  rw [accepted, grown, List.drop_left] at there
  exact fine o there

theorem Takes.append_accepted (h : c.Takes P c') : c'.outbound = c.outbound ++ c.accepted c' := by
  obtain ⟨-, added, grown, -, -⟩ := h
  rw [accepted, grown, List.drop_left]

theorem accepted_of_shorter (shorter : c'.outbound.length ≤ c.outbound.length) : c.accepted c' = [] :=
  List.drop_of_length_le shorter

/-- What is put into the queue is accepted just when the queue is open. -/
theorem accepted_enqueue (c : Client) (o : Outbound) :
    c.accepted ((c.enqueue o).toOption.getD c) = if c.isQueueOpen then [o] else [] := by
  unfold enqueue
  split
  · simp [accepted, Except.toOption]
  · simp [accepted, Except.toOption]

theorem sayExit_eq (c : Client) : c.sayExit = (c.enqueue (.message .exit)).toOption.getD c := by
  simp only [sayExit, notify, send, Message.exit]
  cases c.enqueue (.message (.notification ⟨"exit", .null⟩)) <;> rfl

end Client

theorem Link.accepted_acknowledged {now : Nat} {l : Link} {s : EndStage} (h : l.Acknowledged now s) :
    l.client.accepted (l.shutDown now s).1.client =
      if l.client.isQueueOpen then [.message .exit] else [] := by
  obtain ⟨c, step, isQueueOpen, outbound, -⟩ := shutDown_acknowledged h
  have said := c.accepted_enqueue (.message .exit)
  rw [← Client.sayExit_eq, Client.accepted, isQueueOpen, outbound] at said
  rw [step]
  exact said

/-! What a step writes. -/

namespace Link

/-- What the writer has written between two states. -/
def written (l l' : Link) : List Message := l'.toServer.drop l.toServer.length

theorem written_of_eq {l l' : Link} (h : l'.toServer = l.toServer) : l.written l' = [] := by
  simp [written, h]

/-- All that a step can do to the queue and to what is written. -/
inductive Passes (P : Outbound → Prop) (l l' : Link) : Prop
  | accepts (takes : l.client.Takes P l'.client) (unwritten : l.written l' = [])
  | writes (m : Message) (before : l.client.isQueueOpen = true) (after : l'.client.isQueueOpen = true)
      (front : l.client.outbound = .message m :: l'.client.outbound) (written : l.written l' = [m])
  | shuts (shut : l'.client.isQueueOpen = false) (forgotten : l'.client.outbound = [])
      (unwritten : l.written l' = [])

namespace Passes

variable {P : Outbound → Prop} {l l' : Link}

theorem of_queues (h : l.client.Queues P l'.client) (unwritten : l'.toServer = l.toServer) :
    l.Passes P l' := .accepts h.toTakes (written_of_eq unwritten)

theorem refl (l : Link) : l.Passes P l := of_queues (.refl _) rfl

theorem mem_accepted (h : l.Passes P l') {o : Outbound} (there : o ∈ l.client.accepted l'.client) :
    P o := by
  cases h with
  | accepts takes => exact takes.mem_accepted there
  | writes m before after front =>
    rw [Client.accepted_of_shorter (by simp [front])] at there
    cases there
  | shuts shut forgotten =>
    rw [Client.accepted_of_shorter (by simp [forgotten])] at there
    cases there

/-- A closed queue accepts nothing. -/
theorem accepted_of_shut (h : l.Passes P l') (shut : l.client.isQueueOpen = false) :
    l.client.accepted l'.client = [] := by
  cases h with
  | accepts takes =>
    obtain ⟨-, added, grown, -, none⟩ := takes
    simp [Client.accepted, grown, none shut]
  | writes m before after front => exact Client.accepted_of_shorter (by simp [front])
  | shuts _ forgotten => exact Client.accepted_of_shorter (by simp [forgotten])

end Passes

variable {P : Outbound → Prop} {l l' : Link}

theorem passes_closeInput (l : Link) : l.Passes P l.closeInput := .shuts rfl rfl (written_of_eq rfl)

theorem passes_write (isOpen : l.client.isQueueOpen = true) (h : l.Writes l') : l.Passes P l' := by
  cases h with
  | stops => exact l.passes_closeInput
  | sends m rest _ front => exact .writes m isOpen isOpen front (by simp [written])

theorem passes_serve (h : l.Serves l') : l.Passes P l' := by
  cases h with
  | takes m rest front => exact .accepts (Client.Queues.refl _).toTakes (by simp [written, front])
  | finishes => exact .of_queues (.refl _) rfl

theorem toServer_read (h : l.Reads l') : l'.toServer = l.toServer := by
  cases h with
  | ends | takes => rfl
  | routes m d =>
    obtain ⟨r, -, accepted⟩ | ⟨-, ⟨-, left⟩ | ⟨-, entered⟩⟩ := route_cases { l with decoder := d } m
    · rw [accepted]
    · rw [left]
    · rw [entered]

theorem toServer_listen {reports : List Report} (h : l.Listens l' reports) : l'.toServer = l.toServer := by
  cases h with
  | hears | ends => rfl

theorem passes_step {hand : Hand} {reports : List Report} (responses : ∀ o, Listener.IsResponse o → P o)
    (h : l.step hand = some (l', reports)) : l.Passes P l' := by
  cases step_cases h with
  | writes isOpen moved => exact passes_write isOpen moved
  | serves _ moved => exact passes_serve moved
  | reads _ moved => exact .of_queues (queues_read moved) (toServer_read moved)
  | listens moved => exact .of_queues ((queues_listen moved).mono responses) (toServer_listen moved)

theorem ok_of_map {ε α β : Type} {r : Except ε α} {f : α → β} {b : β} (h : r.map f = .ok b) :
    ∃ a, r = .ok a ∧ f a = b := by
  cases r with
  | error e => cases h
  | ok a => exact ⟨a, rfl, Except.ok.inj h⟩

theorem passes_settled {r : Except Error Client} (h : ∀ c, r = .ok c → l.client.Takes P c) :
    l.Passes P (l.settled r) := by
  cases r with
  | ok c => exact .accepts (h c rfl) (written_of_eq rfl)
  | error e => exact .refl _

theorem takes_openDocument {c c' : Client} {d : Document} {change : DocumentChange}
    (opens : ∀ params, P (.message (.notification ⟨"textDocument/didOpen", params⟩)))
    (h : c.openDocument d = .ok (change, c')) : c.Takes P c' := by
  unfold Client.openDocument at h
  split at h
  · cases h
    exact (Client.Queues.refl _).toTakes
  · simp only [bind, Except.bind] at h
    split at h
    · cases h
    · next told =>
      cases h
      have queues : c.Queues P _ := .of_enqueue told (opens _)
      exact ⟨queues.isQueueOpen, queues.added⟩

theorem takes_closeDocument {c c' : Client} {uri : String} {change : DocumentChange}
    (closes : ∀ params, P (.message (.notification ⟨"textDocument/didClose", params⟩)))
    (h : c.closeDocument uri = .ok (change, c')) : c.Takes P c' := by
  unfold Client.closeDocument at h
  split at h
  · simp only [bind, Except.bind] at h
    split at h
    · cases h
    · next told =>
      cases h
      have queues : c.Queues P _ := .of_enqueue told (closes _)
      exact ⟨queues.isQueueOpen, queues.added⟩
  · cases h
    exact (Client.Queues.refl _).toTakes

/-- What an act may queue: responses, what is told of documents, and what it is asked to. -/
theorem passes_act (l : Link) (a : Act) (responses : ∀ o, Listener.IsResponse o → P o)
    (documents : ∀ params, P (.message (.notification ⟨"textDocument/didOpen", params⟩)) ∧
      P (.message (.notification ⟨"textDocument/didClose", params⟩)))
    (notices : ∀ method params,
      a = .notify method params → P (.message (.notification ⟨method, params⟩))) :
    l.Passes P (l.act a).1 := by
  cases a with
  | hand h =>
    simp only [act]
    cases moved : l.step h with
    | none => exact .refl _
    | some moved' => exact passes_step responses moved
  | emit bs =>
    simp only [act, emit]
    split
    · exact .of_queues (.refl _) rfl
    · exact .refl _
  | serverEnds => exact .of_queues (.refl _) rfl
  | openDocument d =>
    refine passes_settled fun c made => ?_
    obtain ⟨⟨change, c'⟩, opened, rfl⟩ := ok_of_map made
    exact takes_openDocument (fun params => (documents params).1) opened
  | closeDocument uri =>
    refine passes_settled fun c made => ?_
    obtain ⟨⟨change, c'⟩, closed, rfl⟩ := ok_of_map made
    exact takes_closeDocument (fun params => (documents params).2) closed
  | notify method params =>
    exact passes_settled fun c told =>
      (Client.Queues.of_enqueue told (notices method params rfl)).toTakes
  | respond r => exact passes_settled fun c told =>
    (Client.Queues.of_enqueue told (responses _ ⟨r, rfl⟩)).toTakes
  | startListening settings =>
    simp only [act, startListening]
    split
    · exact .of_queues (.refl _) rfl
    · exact .refl _
  | stopListening =>
    simp only [act, stopListening]
    split
    · exact .refl _
    · exact .of_queues (.refl _) rfl
  | terminate =>
    simp only [act, terminate]
    split
    · exact .of_queues (.of_eq rfl rfl rfl) rfl
    · exact .of_queues (.of_eq rfl rfl rfl) rfl

theorem toServer_shutDown (now : Nat) (l : Link) (s : EndStage) :
    (l.shutDown now s).1.toServer = l.toServer := by
  cases s with
  | asking s =>
    simp only [shutDown]
    split <;> rfl
  | closing r =>
    simp only [shutDown]
    split <;> rfl
  | flushing r deadline =>
    simp only [shutDown]
    split <;> rfl
  | draining r =>
    simp only [shutDown]
    split
    · split <;> rfl
    · rfl
  | reaping r deadline =>
    simp only [shutDown]
    split
    · rfl
    · split <;> rfl

theorem unwritten_step (now : Nat) (l : Link) (call : ClientCall) :
    l.written (call.step now l).1 = [] := by
  refine written_of_eq ?_
  cases call with
  | ask | lookUp | greet => rfl
  | shutDown s => exact toServer_shutDown now l s

end Link

end LanguageHost
