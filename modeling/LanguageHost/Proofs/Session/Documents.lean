import LanguageHost.Proofs.Session.Queue
import LanguageHost.Proofs.Session.Run
import Mathlib.Data.List.Induction

/-!
Messages about documents, and all that queues none: queries, the first request, the end of a session, and
the answers to a server's own requests.
-/
namespace LanguageHost

/-! Messages about documents. -/

namespace Message

def didOpen : String := "textDocument/didOpen"

def didClose : String := "textDocument/didClose"

/-- The document that the parameters name. -/
def document? (params : Json) : Option String :=
  ((params.get? "textDocument").bind (·.get? "uri")).bind Json.str?

/-- What a message tells of a document: that it is open, or that it is not. -/
def notice? (uri : String) : Message → Option Bool
  | .notification n =>
    if n.method = didOpen ∧ document? n.params = some uri then some true
    else if n.method = didClose ∧ document? n.params = some uri then some false
    else none
  | _ => none

/-- Nothing is told of any document. -/
def IsPlain (m : Message) : Prop := ∀ uri, m.notice? uri = none

theorem notice?_didOpen {params : Json} {uri : String} (named : document? params = some uri) (u : String) :
    notice? u (.notification ⟨didOpen, params⟩) = if u = uri then some true else none := by
  by_cases same : u = uri
  · simp [notice?, named, same]
  · have other : uri ≠ u := Ne.symm same
    simp [notice?, named, same, other]

theorem notice?_didClose {params : Json} {uri : String} (named : document? params = some uri) (u : String) :
    notice? u (.notification ⟨didClose, params⟩) = if u = uri then some false else none := by
  have differ : didClose ≠ didOpen := by decide
  by_cases same : u = uri
  · simp [notice?, named, same, differ]
  · have other : uri ≠ u := Ne.symm same
    simp [notice?, named, same, other]

theorem plain_request (r : Request) : IsPlain (.request r) := fun _ => rfl

theorem plain_response (r : Response) : IsPlain (.response r) := fun _ => rfl

theorem plain_notification {method : String} (other : method ≠ didOpen ∧ method ≠ didClose)
    (params : Json) : IsPlain (.notification ⟨method, params⟩) := by
  intro uri
  simp [notice?, other]

end Message

def Outbound.message? : Outbound → Option Message
  | .message m => some m
  | .close => none

namespace Client

/-- The messages that have been queued between two states of a client. -/
def queuedSince (c c' : Client) : List Message :=
  (c'.outbound.drop c.outbound.length).filterMap Outbound.message?

/-- The documents stay, and what is queued is not about documents. -/
structure Adds (c c' : Client) : Prop where
  documents : c'.documents = c.documents
  queued : ∃ added, c'.outbound = c.outbound ++ added ∧ ∀ m, .message m ∈ added → m.IsPlain

variable {c c' : Client}

theorem adds_of_eq (documents : c'.documents = c.documents) (outbound : c'.outbound = c.outbound) :
    c.Adds c' := ⟨documents, [], by simp [outbound], nofun⟩

theorem Adds.refl (c : Client) : c.Adds c := adds_of_eq rfl rfl

theorem Queues.adds {P : Outbound → Prop} (h : c.Queues P c') (plain : ∀ m, P (.message m) → m.IsPlain) :
    c.Adds c' := by
  obtain ⟨⟨-, added, outbound, fine, -⟩, documents⟩ := h
  exact ⟨documents, added, outbound, fun m there => plain m (fine _ there)⟩

theorem adds_notify {method : String} {params : Json} (h : c.notify method params = .ok c')
    (other : method ≠ Message.didOpen ∧ method ≠ Message.didClose) : c.Adds c' := by
  have queues : c.Queues (· = .message (.notification ⟨method, params⟩)) c' := .of_enqueue h rfl
  refine queues.adds ?_
  rintro m ⟨⟩
  exact Message.plain_notification other params

theorem adds_respond {r : Response} (h : c.respond r = .ok c') : c.Adds c' := by
  have queues : c.Queues (· = .message (.response r)) c' := .of_enqueue h rfl
  refine queues.adds ?_
  rintro m ⟨⟩
  exact Message.plain_response r

end Client

/-! Everything that queues nothing about documents. -/

theorem Outbound.Asks.plain {m : Message} (h : Outbound.Asks (.message m)) : m.IsPlain := by
  cases h with
  | request q id => exact Message.plain_request _
  | cancellation id => exact Message.plain_notification (by decide) _
  | initialized => exact Message.plain_notification (by decide) _

theorem Link.adds_shutDown (now : Nat) (l : Link) (s : EndStage) :
    l.client.Adds (l.shutDown now s).1.client := by
  by_cases said : l.Acknowledged now s
  · refine (queues_acknowledged said).adds ?_
    rintro m ⟨⟩
    exact Message.plain_notification (by decide) _
  · have allowed := Query.shutdown.allowed_asks
    refine (queues_shutDown (P := fun o => o.Asks ∨ o = .close)
      ⟨fun id => .inl (allowed.request id), fun id => .inl (allowed.cancellation id)⟩ (.inr rfl) said).adds ?_
    rintro m (asks | ⟨⟨⟩⟩)
    exact asks.plain

theorem ClientCall.adds_step (now : Nat) (l : Link) (call : ClientCall) :
    l.client.Adds (call.step now l).1.client := by
  cases call with
  | ask q s => exact (Client.queues_ask q.allowed_asks now l.client s).adds fun _ => Outbound.Asks.plain
  | lookUp q s =>
    exact (Client.queues_lookUp q.query.allowed_asks now l.client s).adds fun _ => Outbound.Asks.plain
  | greet s =>
    have asks := Client.queues_greet (s := s) (fun q _ _ => q.allowed_asks) .initialized now l.client
    exact asks.adds fun _ => Outbound.Asks.plain
  | shutDown s => exact l.adds_shutDown now s

namespace Link
variable {l l' : Link}

theorem adds_read (h : l.Reads l') : l.client.Adds l'.client :=
  (queues_read (P := fun _ => False) h).adds fun _ => False.elim

theorem adds_listen {reports : List Report} (h : l.Listens l' reports) : l.client.Adds l'.client := by
  refine (queues_listen h).adds ?_
  rintro m ⟨r, ⟨⟩⟩
  exact Message.plain_response r

end Link

/-!
What the server is told of documents. Calls that open and close documents may come in any order, with
anything else between them, and the queue may close at any moment. For each document the server is told by
turns that it is open and that it is closed, and the client holds it to be open when it has told so last.
-/

/-! What a step is to the documents. -/

namespace Client

/-- All that a step can do to the documents of a client, and the messages that it queues. -/
inductive Files (c c' : Client) (queued : List Message) : Prop
  | keeps (documents : c'.documents = c.documents) (plain : ∀ m ∈ queued, m.IsPlain)
  | tells (uri : String) (m : Message) (opens : Bool) (before : uri ∈ c.documents ↔ opens = false)
      (documents : ∀ u, u ∈ c'.documents ↔ if u = uri then opens = true else u ∈ c.documents)
      (told : queued = [m]) (notice : ∀ u, m.notice? u = if u = uri then some opens else none)

variable {c c' : Client}

theorem queuedSince_append {added : List Outbound} (h : c'.outbound = c.outbound ++ added) :
    c.queuedSince c' = added.filterMap Outbound.message? := by
  unfold queuedSince
  rw [h, List.drop_left]

theorem Adds.files (h : c.Adds c') : c.Files c' (c.queuedSince c') := by
  obtain ⟨documents, added, outbound, plain⟩ := h
  apply Files.keeps documents
  intro m there
  rw [queuedSince_append outbound] at there
  obtain ⟨o, inside, same⟩ := List.mem_filterMap.mp there
  cases o with
  | message m' =>
    cases same
    exact plain m inside
  | close => cases same

/-- Taking messages off the queue queues nothing. -/
theorem files_shorter (documents : c'.documents = c.documents)
    (shorter : c'.outbound.length ≤ c.outbound.length) : c.Files c' (c.queuedSince c') := by
  apply Files.keeps documents
  intro m there
  unfold queuedSince at there
  rw [List.drop_of_length_le shorter] at there
  cases there

theorem queuedSince_message {m : Message} (h : c'.outbound = c.outbound ++ [.message m]) :
    c.queuedSince c' = [m] := queuedSince_append h

theorem files_openDocument {d : Document} {change : DocumentChange}
    (h : c.openDocument d = .ok (change, c')) :
    change = .alreadyOpen ∧ c' = c ∨ change = .opened ∧ ∃ m, c.queuedSince c' = [m] ∧
      (∀ u, m.notice? u = if u = d.uri then some true else none) ∧
      d.uri ∉ c.documents ∧ c'.documents = d.uri :: c.documents := by
  unfold openDocument at h
  split at h
  · cases h
    exact .inl ⟨rfl, rfl⟩
  · next new =>
    simp only [bind, Except.bind] at h
    split at h
    · cases h
    · next c₁ told =>
      obtain ⟨-, rfl⟩ := enqueue_ok told
      cases h
      exact .inr ⟨rfl, _, queuedSince_message rfl, Message.notice?_didOpen rfl, new, rfl⟩

theorem files_closeDocument {uri : String} {change : DocumentChange}
    (h : c.closeDocument uri = .ok (change, c')) :
    change = .notOpen ∧ c' = c ∨ change = .closed ∧ ∃ m, c.queuedSince c' = [m] ∧
      (∀ u, m.notice? u = if u = uri then some false else none) ∧
      uri ∈ c.documents ∧ c'.documents = c.documents.filter (· ≠ uri) := by
  unfold closeDocument at h
  split at h
  · next known =>
    simp only [bind, Except.bind] at h
    split at h
    · cases h
    · next c₁ told =>
      obtain ⟨-, rfl⟩ := enqueue_ok told
      cases h
      exact .inr ⟨rfl, _, queuedSince_message rfl, Message.notice?_didClose rfl, known, rfl⟩
  · cases h
    exact .inl ⟨rfl, rfl⟩

theorem files_refl (c : Client) : c.Files c (c.queuedSince c) := (Adds.refl c).files

theorem queuedSince_self (c : Client) : c.queuedSince c = [] := by simp [queuedSince]

end Client

/-! Calls that are about documents. -/

inductive DocumentCall where
  | openDocument (d : Document)
  | closeDocument (uri : String)
  /-- opens the file at a path, which is read meanwhile -/
  | openFile (p : Path) (text : Except IoError String)

namespace DocumentCall

/-- What a call comes to, and the client after it. -/
def make (c : Client) : DocumentCall → Except Error (Option DocumentChange) × Client
  | openDocument d =>
    match c.openDocument d with
    | .ok (change, c') => (.ok (some change), c')
    | .error e => (.error e, c)
  | closeDocument uri =>
    match c.closeDocument uri with
    | .ok (change, c') => (.ok (some change), c')
    | .error e => (.error e, c)
  | openFile p text =>
    match c.openFile p text with
    | .ok (_, c') => (.ok none, c')
    | .error e => (.error e, c)

variable {c : Client}

theorem openFile_ok {p : Path} {text : Except IoError String} {uri : String} {c' : Client}
    (h : c.openFile p text = .ok (uri, c')) :
    ∃ t change, c.openDocument ⟨uri, c.language, 1, t⟩ = .ok (change, c') := by
  unfold Client.openFile at h
  simp only [bind, Except.bind] at h
  split at h
  · cases h
  · split at h
    · cases h
    · next t =>
      split at h
      · cases h
      · next opened =>
        cases h
        exact ⟨t, _, opened⟩

theorem files_make (c : Client) (call : DocumentCall) :
    c.Files (call.make c).2 (c.queuedSince (call.make c).2) := by
  have opens {d : Document} {change : DocumentChange} {c' : Client}
      (h : c.openDocument d = .ok (change, c')) : c.Files c' (c.queuedSince c') := by
    rcases Client.files_openDocument h with ⟨-, rfl⟩ | ⟨-, m, told, notice, new, documents⟩
    · exact Client.files_refl _
    · refine .tells d.uri m true (by simpa using new) ?_ told notice
      intro u
      by_cases same : u = d.uri <;> simp [documents, same]
  cases call with
  | openDocument d =>
    simp only [make]
    split
    · next opened => exact opens opened
    · exact c.files_refl
  | closeDocument uri =>
    simp only [make]
    split
    · next closed =>
      rcases Client.files_closeDocument closed with ⟨-, rfl⟩ | ⟨-, m, told, notice, known, documents⟩
      · exact Client.files_refl _
      · refine .tells uri m false (by simpa using known) ?_ told notice
        intro u
        by_cases same : u = uri <;> simp [documents, same]
    · exact c.files_refl
  | openFile p text =>
    simp only [make]
    split
    · next opened =>
      obtain ⟨t, change, opened⟩ := openFile_ok opened
      exact opens opened
    · exact c.files_refl

/-- The document that a call names. -/
def document? : DocumentCall → Option String
  | openDocument d => some d.uri
  | closeDocument uri => some uri
  | openFile _ _ => none

/-- The messages that stand for what is answered: of the document that is named, one that it is open, or
that it is not, or none at all. -/
def Tells (call : DocumentCall) : DocumentChange → List Message → Prop
  | .opened, queued => ∃ m, ∃ uri ∈ call.document?, queued = [m] ∧ m.notice? uri = some true
  | .closed, queued => ∃ m, ∃ uri ∈ call.document?, queued = [m] ∧ m.notice? uri = some false
  | .alreadyOpen, queued | .notOpen, queued => queued = []

/-- What is answered is what was queued. -/
theorem tells_make {call : DocumentCall} {change : DocumentChange}
    (h : (call.make c).1 = .ok (some change)) :
    call.Tells change (c.queuedSince (call.make c).2) := by
  cases call with
  | openDocument d =>
    cases opened : c.openDocument d with
    | error e => simp [make, opened] at h
    | ok r =>
      obtain ⟨change', c'⟩ := r
      simp only [make, opened, Except.ok.injEq, Option.some.injEq] at h ⊢
      subst h
      rcases Client.files_openDocument opened with ⟨rfl, rfl⟩ | ⟨rfl, m, told, notice, -⟩
      · exact Client.queuedSince_self _
      · exact ⟨m, d.uri, rfl, told, by simp [notice]⟩
  | closeDocument uri =>
    cases closed : c.closeDocument uri with
    | error e => simp [make, closed] at h
    | ok r =>
      obtain ⟨change', c'⟩ := r
      simp only [make, closed, Except.ok.injEq, Option.some.injEq] at h ⊢
      subst h
      rcases Client.files_closeDocument closed with ⟨rfl, rfl⟩ | ⟨rfl, m, told, notice, -⟩
      · exact Client.queuedSince_self _
      · exact ⟨m, uri, rfl, told, by simp [notice]⟩
  | openFile p text =>
    simp only [make] at h
    split at h <;> cases h

/-- A call that fails leaves the client. -/
theorem make_error {call : DocumentCall} {e : Error} (h : (call.make c).1 = .error e) :
    (call.make c).2 = c := by
  cases call with
  | openDocument d =>
    simp only [make] at h ⊢
    split at h
    · cases h
    · rfl
  | closeDocument uri =>
    simp only [make] at h ⊢
    split at h
    · cases h
    · rfl
  | openFile p text =>
    simp only [make] at h ⊢
    split at h
    · cases h
    · rfl

end DocumentCall

/-! Everything else. -/

namespace Link
variable {l l' : Link}

theorem files_of_eq (documents : l'.client.documents = l.client.documents)
    (outbound : l'.client.outbound = l.client.outbound) :
    l.client.Files l'.client (l.client.queuedSince l'.client) :=
  (Client.adds_of_eq documents outbound).files

theorem files_write (h : l.Writes l') : l.client.Files l'.client (l.client.queuedSince l'.client) := by
  cases h with
  | stops => exact Client.files_shorter rfl (Nat.zero_le _)
  | sends m rest _ front => exact Client.files_shorter rfl (by simp [front])

theorem files_step {hand : Hand} {reports : List Report} (h : l.step hand = some (l', reports)) :
    l.client.Files l'.client (l.client.queuedSince l'.client) := by
  cases step_cases h with
  | writes _ moved => exact files_write moved
  | serves _ moved =>
    cases moved with
    | takes | finishes => exact Client.files_refl _
  | reads _ moved => exact (adds_read moved).files
  | listens moved => exact (adds_listen moved).files

theorem files_settled {r : Except Error Client} (h : ∀ c, r = .ok c → l.client.Adds c) :
    l.client.Files (l.settled r).client (l.client.queuedSince (l.settled r).client) := by
  cases r with
  | ok c => exact (h c rfl).files
  | error e => exact Client.files_refl _

/-- The server is told of documents by nothing else than the calls for it. -/
def Act.IsFair : Act → Prop
  | .notify method _ => method ≠ Message.didOpen ∧ method ≠ Message.didClose
  | _ => True

theorem act_openDocument (l : Link) (d : Document) :
    (l.act (.openDocument d)).1.client = ((DocumentCall.openDocument d).make l.client).2 := by
  simp only [act, DocumentCall.make]
  cases l.client.openDocument d <;> rfl

theorem act_closeDocument (l : Link) (uri : String) :
    (l.act (.closeDocument uri)).1.client = ((DocumentCall.closeDocument uri).make l.client).2 := by
  simp only [act, DocumentCall.make]
  cases l.client.closeDocument uri <;> rfl

theorem files_act (l : Link) {a : Act} (fair : a.IsFair) :
    l.client.Files (l.act a).1.client (l.client.queuedSince (l.act a).1.client) := by
  cases a with
  | hand h =>
    simp only [act]
    cases moved : l.step h with
    | none => exact Client.files_refl _
    | some moved' => exact files_step moved
  | emit bs =>
    simp only [act, emit]
    split <;> exact Client.files_refl _
  | serverEnds => exact Client.files_refl _
  | openDocument d =>
    rw [act_openDocument]
    exact DocumentCall.files_make _ _
  | closeDocument uri =>
    rw [act_closeDocument]
    exact DocumentCall.files_make _ _
  | notify method params => exact files_settled fun c told => Client.adds_notify told fair
  | respond r => exact files_settled fun c told => Client.adds_respond told
  | startListening settings =>
    simp only [act, startListening]
    split <;> exact Client.files_refl _
  | stopListening =>
    simp only [act, stopListening]
    split <;> exact Client.files_refl _
  | terminate =>
    simp only [act, terminate]
    split <;> exact files_of_eq rfl rfl

end Link

/-! Runs. -/

/-- By turns, beginning with this. -/
def ByTurns (first : Bool) : List Bool → Prop
  | [] => True
  | b :: bs => b = first ∧ ByTurns (!first) bs

/-- What comes next by turns. -/
def nextTurn (first : Bool) : List Bool → Bool
  | [] => first
  | _ :: bs => nextTurn (!first) bs

theorem byTurns_concat {first b : Bool} {bs : List Bool} :
    ByTurns first (bs ++ [b]) ↔ ByTurns first bs ∧ b = nextTurn first bs := by
  induction bs generalizing first with
  | nil => simp [ByTurns, nextTurn]
  | cons c bs ih => simp [ByTurns, nextTurn, ih, and_assoc]

theorem nextTurn_concat (first b : Bool) (bs : List Bool) :
    nextTurn first (bs ++ [b]) = !nextTurn first bs := by
  induction bs generalizing first with
  | nil => rfl
  | cons c bs ih => exact ih (!first)

theorem nextTurn_eq {first : Bool} {bs : List Bool} (h : ByTurns first bs) :
    nextTurn first bs = (bs.getLast?.map (!·)).getD first := by
  induction bs using List.reverseRecOn with
  | nil => rfl
  | append_singleton bs b ih =>
    obtain ⟨before, rfl⟩ := byTurns_concat.mp h
    rw [nextTurn_concat, List.getLast?_concat]
    rfl

namespace Client

/-- The server has been told of each document by turns, and last that it is open if the client holds it to
be open. -/
structure Filed (c : Client) (told : List Message) : Prop where
  turns : ∀ uri, ByTurns true (told.filterMap (Message.notice? uri))
  last : ∀ uri, uri ∈ c.documents ↔ (told.filterMap (Message.notice? uri)).getLast? = some true

theorem Files.filed {c c' : Client} {queued told : List Message} (moved : c.Files c' queued)
    (h : c.Filed told) : c'.Filed (told ++ queued) := by
  cases moved with
  | keeps documents plain =>
    have nothing (uri : String) : queued.filterMap (Message.notice? uri) = [] :=
      List.filterMap_eq_nil_iff.mpr fun m there => plain m there uri
    constructor
    · intro uri
      rw [List.filterMap_append, nothing, List.append_nil]
      exact h.turns uri
    · intro uri
      rw [List.filterMap_append, nothing, List.append_nil, documents]
      exact h.last uri
  | tells uri m opens before documents one notice =>
    subst one
    have turn : opens = nextTurn true (told.filterMap (Message.notice? uri)) := by
      have held := h.last uri
      rw [before] at held
      rw [nextTurn_eq (h.turns uri)]
      cases last : (told.filterMap (Message.notice? uri)).getLast? with
      | none => simpa [last] using held
      | some b => cases b <;> simpa [last] using held
    constructor
    · intro u
      by_cases same : u = uri
      · subst same
        have added : [m].filterMap (Message.notice? u) = [opens] := by simp [notice]
        rw [List.filterMap_append, added]
        exact byTurns_concat.mpr ⟨h.turns u, turn⟩
      · have added : [m].filterMap (Message.notice? u) = [] := by simp [notice, same]
        rw [List.filterMap_append, added, List.append_nil]
        exact h.turns u
    · intro u
      rw [documents]
      by_cases same : u = uri
      · subst same
        simp [List.filterMap_append, notice]
      · simp [List.filterMap_append, notice, same, h.last u]

end Client

namespace Session

/-- What may happen: a call about documents, or anything else. -/
inductive Deed where
  | call (call : DocumentCall)
  | move (move : Move)

def Deed.IsFair : Deed → Prop
  | .move (.act a) => a.IsFair
  | _ => True

def perform (s : Session) : Deed → Session
  | .call call => { s with link := { s.link with client := (call.make s.link.client).2 } }
  | .move move => s.next move

def performAll (s : Session) (deeds : List Deed) : Session := deeds.foldl perform s

/-- The messages that are queued for the server, in order. -/
def queued : Session → List Deed → List Message
  | _, [] => []
  | s, deed :: deeds =>
    s.link.client.queuedSince (s.perform deed).link.client ++ (s.perform deed).queued deeds

theorem files_perform (s : Session) {deed : Deed} (fair : deed.IsFair) :
    s.link.client.Files (s.perform deed).link.client
      (s.link.client.queuedSince (s.perform deed).link.client) := by
  cases deed with
  | call call => exact DocumentCall.files_make _ call
  | move move =>
    cases move with
    | begin call =>
      simp only [perform, next]
      split <;> exact Client.files_refl _
    | turn k =>
      simp only [perform, next]
      split
      · exact Client.files_refl _
      · next call _ => exact (ClientCall.adds_step s.now s.link call).files
    | act a => exact s.link.files_act fair
    | pass time => exact Client.files_refl _

theorem filed_performAll {s : Session} {told : List Message} (h : s.link.client.Filed told)
    {deeds : List Deed} (fair : ∀ deed ∈ deeds, deed.IsFair) :
    (s.performAll deeds).link.client.Filed (told ++ s.queued deeds) := by
  induction deeds generalizing s told with
  | nil => simpa [queued, performAll] using h
  | cons deed deeds ih =>
    have after := (s.files_perform (fair deed (by simp))).filed h
    have rest := ih after fun deed there => fair deed (List.mem_cons_of_mem _ there)
    rw [List.append_assoc] at rest
    exact rest

/-- The server is told of each document by turns that it is open and that it is closed, whatever else
happens and whenever the queue closes; a document is held to be open when the server has been told so last.
A call answers that it has opened or closed a document when it has told the server, and only then; one that
fails leaves everything. -/
theorem documents_by_turns (now : Nat) (language : String) (config : ClientConfig) (server : Peer)
    (process : Option Invocation) (deeds : List Deed) (fair : ∀ deed ∈ deeds, deed.IsFair) :
    let s := (start now language config server process).performAll deeds
    let told := (start now language config server process).queued deeds
    (∀ uri, ByTurns true (told.filterMap (Message.notice? uri))) ∧
      (∀ uri, s.link.client.isOpen uri = true ↔
        (told.filterMap (Message.notice? uri)).getLast? = some true) ∧
      (∀ (call : DocumentCall) change, (call.make s.link.client).1 = .ok (some change) →
        call.Tells change (s.link.client.queuedSince (s.perform (.call call)).link.client)) ∧
      ∀ (call : DocumentCall) e, (call.make s.link.client).1 = .error e → s.perform (.call call) = s := by
  intro s told
  have begun : (start now language config server process).link.client.Filed [] :=
    ⟨fun _ => trivial, fun _ => ⟨nofun, nofun⟩⟩
  have filed : s.link.client.Filed told := filed_performAll begun fair
  refine ⟨filed.turns, ?_, ?_, ?_⟩
  · intro uri
    rw [← filed.last uri]
    exact decide_eq_true_iff
  · intro call change answered
    exact DocumentCall.tells_make answered
  · intro call e failed
    simp only [perform, DocumentCall.make_error failed]

/-- A document is opened twice, the queue closes, and closing the document fails. -/
def cutShort : List Deed :=
  [.call (.openDocument ⟨"file:///a", "x", 1, ""⟩), .call (.openDocument ⟨"file:///a", "x", 2, ""⟩),
    .move (.act .terminate), .move (.act (.hand .writer)), .call (.closeDocument "file:///a")]

theorem cutShort_by_turns :
    let s := start 0 "x" ⟨⟨"/"⟩, [], none, 9⟩ (.ofScript .empty) none
    (s.performAll cutShort).link.client.isOpen "file:///a" = true ∧
      ByTurns true ((s.queued cutShort).filterMap (Message.notice? "file:///a")) := by
  have whole := documents_by_turns 0 "x" ⟨⟨"/"⟩, [], none, 9⟩ (.ofScript .empty) none cutShort
    (by simp [cutShort, Deed.IsFair, Link.Act.IsFair])
  exact ⟨(whole.2.1 "file:///a").mpr (by decide), whole.1 "file:///a"⟩

end Session

end LanguageHost
