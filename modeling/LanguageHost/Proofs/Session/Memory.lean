import Mathlib.Data.List.Induction
import LanguageHost.Proofs.Protocol.Fields
import LanguageHost.Proofs.Session.Listening
import LanguageHost.Proofs.Session.Queue
import LanguageHost.Proofs.Table

/-!
What a client remembers of its server: the diagnostics of documents, and what the server has registered. Each
message about them, and each document that is closed, is a remark; the memory is what the remarks make of it
one after the other, and nothing else changes it. So of each document and each identifier the last remark
counts, unless it was taken back since.
-/
namespace LanguageHost

/-- Something that is remembered, or forgotten again. -/
inductive Remark where
  | published (uri : String) (list : List Json)
  | closed (uri : String)
  | registered (id : String) (registration : Json)
  | unregistered (id : String)

namespace Remark

/-! What is said of a document or an identifier. -/

def published? (uri : String) : Remark → Option (List Json)
  | published u list => if u = uri then some list else none
  | _ => none

def closes (uri : String) : Remark → Bool
  | closed u => u = uri
  | _ => false

def registered? (id : String) : Remark → Option Json
  | registered i registration => if i = id then some registration else none
  | _ => none

def unregisters (id : String) : Remark → Bool
  | unregistered i => i = id
  | _ => false

/-- The last that was said, of all that was said since it was last taken back. -/
def latest (said : Remark → Option α) (takenBack : Remark → Bool) (told : List Remark) : Option α :=
  (told.reverse.takeWhile fun r => !takenBack r).findSome? said

theorem latest_concat (said : Remark → Option α) (takenBack : Remark → Bool) (told : List Remark)
    (r : Remark) :
    latest said takenBack (told ++ [r]) =
      if takenBack r then none else (said r).or (latest said takenBack told) := by
  rw [latest, List.reverse_concat, List.takeWhile_cons]
  cases takenBack r with
  | true => rfl
  | false =>
    simp only [Bool.not_false, if_true, List.findSome?_cons, Bool.false_eq_true, if_false]
    cases said r <;> rfl

theorem exists_of_latest {said : Remark → Option α} {takenBack : Remark → Bool} {told : List Remark}
    {a : α} (h : latest said takenBack told = some a) : ∃ r ∈ told, said r = some a := by
  obtain ⟨r, there, own⟩ := List.exists_of_findSome?_eq_some h
  exact ⟨r, List.mem_reverse.mp ((List.takeWhile_sublist _).subset there), own⟩

/-! What messages say. -/

/-- The text of a member. -/
def text? (key : String) (j : Json) : Option String := (j.get? key).bind Json.str?

/-- The items of a member that is a list, each as it is read. -/
def items? (key : String) (item : Json → Option α) (j : Json) : Option (List α) :=
  (j.get? key).bind (Json.list? item)

def ofPublication? (params : Json) : Option Remark := do
  let j ← Shape.diagnosticsParams.read? params
  pure (published (← text? "uri" j) (← items? "diagnostics" some j))

def ofRegistrations? (params : Json) : Option (List Remark) := do
  items? "registrations" (fun r => (text? "id" r).map fun id => registered id r)
    (← Shape.registrationParams.read? params)

def ofUnregistrations? (params : Json) : Option (List Remark) := do
  items? "unregisterations" (fun u => (text? "id" u).map unregistered)
    (← Shape.unregistrationParams.read? params)

end Remark

/-- What a message says that is remembered. One whose parameters do not fit its method says nothing. -/
def Message.remarks : Message → List Remark
  | .notification n =>
    if n.method = "textDocument/publishDiagnostics" then (Remark.ofPublication? n.params).toList else []
  | .request r =>
    if r.method = "client/registerCapability" then (Remark.ofRegistrations? r.params).getD []
    else if r.method = "client/unregisterCapability" then (Remark.ofUnregistrations? r.params).getD []
    else []
  | .response _ => []

namespace Remark
open Listener (itemsOf textOf)
variable {params j : Json}

theorem text?_eq_some_iff {key s : String} : text? key j = some s ↔ j.get? key = some (.str s) := by
  rw [text?, Option.bind_eq_some_iff]
  constructor
  · rintro ⟨i, there, text⟩
    cases i with
    | str s' =>
      cases text
      exact there
    | _ => cases text
  · exact fun there => ⟨_, there, rfl⟩

/-! Parameters that fit have all that is read from them. -/

theorem text?_of_get? {key s : String} (there : j.get? key = some (.str s)) :
    text? key j = some (textOf key j) := by
  rw [text?_eq_some_iff.mpr there, textOf, there]
  rfl

theorem items?_of_get? {key : String} {items : List Json} {item : Json → Option α} {f : Json → α}
    (there : j.get? key = some (.arr items)) (each : ∀ i ∈ items, item i = some (f i)) :
    items? key item j = some ((itemsOf key j).map f) := by
  have whole : items.mapM item = some (items.map f) :=
    Json.mapM_eq_some_iff.mpr (List.forall₂_map_right_iff.mpr (List.forall₂_same.mpr each))
  simp only [items?, itemsOf, there, Option.bind_some, Json.list?, whole]

/-- Diagnostics that fit are published. -/
theorem ofPublication?_of_read (read : Shape.diagnosticsParams.read? params = some j) :
    ofPublication? params = some (published (textOf "uri" j) (itemsOf "diagnostics" j)) := by
  obtain ⟨fuel, v, rfl, fielded⟩ := Shape.exists_fielded (by decide) read
  obtain ⟨u, uri⟩ := fielded.get?_url List.mem_cons_self
  obtain ⟨vs, diagnostics, -⟩ := fielded.get?_list (List.mem_cons_of_mem _ List.mem_cons_self)
  have listed : items? "diagnostics" some v.encode = some ((itemsOf "diagnostics" v.encode).map id) :=
    items?_of_get? diagnostics fun i _ => rfl
  simp [ofPublication?, read, text?_of_get? uri, listed]

/-- The entries of a list, each with its identifier. -/
theorem items?_of_entries {key : String} {entry : Shape.Fields} {α : Type} (say : String → Json → α)
    (distinct : (entry.map Prod.fst).Nodup) (named : ("id", .required, .text) ∈ entry)
    (read : (Shape.record [Shape.need key (.list (.record entry))]).read? params = some j) :
    items? key (fun i => (text? "id" i).map fun id => say id i) j =
      some ((itemsOf key j).map fun i => say (textOf "id" i) i) := by
  obtain ⟨fuel, v, rfl, fielded⟩ := Shape.exists_fielded (by simp) read
  obtain ⟨vs, listed, each⟩ := fielded.get?_list List.mem_cons_self
  refine items?_of_get? listed fun i there => ?_
  obtain ⟨w, inside, rfl⟩ := List.mem_map.mp there
  obtain ⟨k, here⟩ := each w inside
  obtain ⟨s, own⟩ := (Shape.fielded distinct here).get?_text named
  rw [text?_of_get? own]
  rfl

theorem ofRegistrations?_of_read (read : Shape.registrationParams.read? params = some j) :
    ofRegistrations? params =
      some ((itemsOf "registrations" j).map fun r => registered (textOf "id" r) r) := by
  rw [ofRegistrations?, read]
  exact items?_of_entries registered (by decide) List.mem_cons_self read

theorem ofUnregistrations?_of_read (read : Shape.unregistrationParams.read? params = some j) :
    ofUnregistrations? params =
      some ((itemsOf "unregisterations" j).map fun u => unregistered (textOf "id" u)) := by
  rw [ofUnregistrations?, read]
  exact items?_of_entries (fun id _ => unregistered id) (by decide) List.mem_cons_self read

/-! A registration has the identifier that it goes by. -/

def BearsId : Remark → Prop
  | registered id registration => registration.get? "id" = some (.str id)
  | _ => True

theorem bearsId_ofPublication? {r : Remark} (h : ofPublication? params = some r) : r.BearsId := by
  simp only [ofPublication?, Option.bind_eq_bind, Option.bind_eq_some_iff, Option.pure_def] at h
  obtain ⟨j, -, uri, -, list, -, ⟨⟩⟩ := h
  trivial

theorem exists_of_items? {key : String} {item : Json → Option α} {as : List α}
    (h : items? key item j = some as) {a : α} (there : a ∈ as) : ∃ i, item i = some a := by
  obtain ⟨i, -, list⟩ := Option.bind_eq_some_iff.mp h
  cases i with
  | arr items =>
    obtain ⟨i, -, own⟩ := Json.exists_of_mapM list there
    exact ⟨i, own⟩
  | _ => cases list

theorem bearsId_ofRegistrations? {rs : List Remark} (h : ofRegistrations? params = some rs) {r : Remark}
    (there : r ∈ rs) : r.BearsId := by
  obtain ⟨j, -, listed⟩ := Option.bind_eq_some_iff.mp h
  obtain ⟨i, own⟩ := exists_of_items? listed there
  obtain ⟨id, text, rfl⟩ := Option.map_eq_some_iff.mp own
  exact text?_eq_some_iff.mp text

theorem bearsId_ofUnregistrations? {rs : List Remark} (h : ofUnregistrations? params = some rs) {r : Remark}
    (there : r ∈ rs) : r.BearsId := by
  obtain ⟨j, -, listed⟩ := Option.bind_eq_some_iff.mp h
  obtain ⟨i, own⟩ := exists_of_items? listed there
  obtain ⟨id, -, rfl⟩ := Option.map_eq_some_iff.mp own
  trivial

end Remark

theorem Message.bearsId_remarks {m : Message} {r : Remark} (there : r ∈ m.remarks) : r.BearsId := by
  have said {rs? : Option (List Remark)} (there : r ∈ rs?.getD []) : ∃ rs, rs? = some rs ∧ r ∈ rs := by
    cases rs? with
    | none => cases there
    | some rs => exact ⟨rs, rfl, there⟩
  cases m with
  | response a => cases there
  | notification n =>
    simp only [remarks] at there
    split at there
    · exact Remark.bearsId_ofPublication? (Option.mem_toList.mp there)
    · cases there
  | request q =>
    simp only [remarks] at there
    split at there
    · obtain ⟨rs, listed, there⟩ := said there
      exact Remark.bearsId_ofRegistrations? listed there
    · split at there
      · obtain ⟨rs, listed, there⟩ := said there
        exact Remark.bearsId_ofUnregistrations? listed there
      · cases there

/-! What is remembered. -/

/-- The part of a client that its server's remarks are about. -/
structure Memory where
  diagnostics : Table (List Json)
  registrations : Table Json

namespace Memory

def note (m : Memory) : Remark → Memory
  | .published uri list =>
    { m with diagnostics := if list.isEmpty then m.diagnostics.erase uri else m.diagnostics.insert uri list }
  | .closed uri => { m with diagnostics := m.diagnostics.erase uri }
  | .registered id registration => { m with registrations := m.registrations.insert id registration }
  | .unregistered id => { m with registrations := m.registrations.erase id }

def replay (m : Memory) (told : List Remark) : Memory := told.foldl note m

theorem replay_append (m : Memory) (told later : List Remark) :
    m.replay (told ++ later) = (m.replay told).replay later := List.foldl_append

theorem replay_registered (m : Memory) (say : Json → String) (items : List Json) :
    m.replay (items.map fun r => .registered (say r) r) =
      { m with registrations := m.registrations.insertAll (items.map fun r => (say r, r)) } := by
  induction items generalizing m with
  | nil => rfl
  | cons r items ih => exact ih _

theorem replay_unregistered (m : Memory) (say : Json → String) (items : List Json) :
    m.replay (items.map fun u => .unregistered (say u)) =
      { m with registrations := (items.map say).foldl (fun t id => t.erase id) m.registrations } := by
  induction items generalizing m with
  | nil => rfl
  | cons r items ih => exact ih _

/-- The memory holds what was last said and not taken back since. -/
structure Recalls (m : Memory) (told : List Remark) : Prop where
  diagnostics : ∀ uri, (m.diagnostics.get? uri).getD [] =
    (Remark.latest (Remark.published? uri) (Remark.closes uri) told).getD []
  registrations : ∀ id, m.registrations.get? id =
    Remark.latest (Remark.registered? id) (Remark.unregisters id) told
  sorted : m.registrations.Sorted

variable (m : Memory) (r : Remark)

theorem diagnostics_note (uri : String) : ((m.note r).diagnostics.get? uri).getD [] =
    if r.closes uri then [] else (r.published? uri).getD ((m.diagnostics.get? uri).getD []) := by
  cases r with
  | published u list =>
    by_cases same : uri = u
    · subst same
      cases list <;> simp [note, Remark.closes, Remark.published?, Table.get?_erase]
    · have other : u ≠ uri := Ne.symm same
      cases list <;>
        simp [note, Remark.closes, Remark.published?, Table.get?_erase, Table.get?_insert, same, other]
  | closed u =>
    by_cases same : uri = u
    · simp [note, Remark.closes, Table.get?_erase, same]
    · have other : u ≠ uri := Ne.symm same
      simp [note, Remark.closes, Remark.published?, Table.get?_erase, same, other]
  | registered id registration => rfl
  | unregistered id => rfl

theorem registrations_note (id : String) : (m.note r).registrations.get? id =
    if r.unregisters id then none else (r.registered? id).or (m.registrations.get? id) := by
  cases r with
  | published uri list => rfl
  | closed uri => rfl
  | registered i registration =>
    by_cases same : id = i
    · simp [note, Remark.unregisters, Remark.registered?, same]
    · have other : i ≠ id := Ne.symm same
      simp [note, Remark.unregisters, Remark.registered?, Table.get?_insert, same, other]
  | unregistered i =>
    by_cases same : id = i
    · simp [note, Remark.unregisters, Table.get?_erase, same]
    · have other : i ≠ id := Ne.symm same
      simp [note, Remark.unregisters, Remark.registered?, Table.get?_erase, same, other]

variable {m} in
theorem sorted_note (h : m.registrations.Sorted) : (m.note r).registrations.Sorted := by
  cases r with
  | published uri list => exact h
  | closed uri => exact h
  | registered id registration => exact h.insert id registration
  | unregistered id => exact h.erase id

variable {m} in
theorem Recalls.note {told : List Remark} (h : m.Recalls told) : (m.note r).Recalls (told ++ [r]) := by
  refine ⟨fun uri => ?_, fun id => ?_, sorted_note r h.sorted⟩
  · rw [diagnostics_note, h.diagnostics, Remark.latest_concat]
    split
    · rfl
    · rw [Option.getD_or]
  · rw [registrations_note, h.registrations, Remark.latest_concat]

theorem recalls_replay (told : List Remark) : (replay ⟨[], []⟩ told).Recalls told := by
  induction told using List.reverseRecOn with
  | nil => exact ⟨fun _ => rfl, fun _ => rfl, .nil⟩
  | append_singleton told r ih =>
    rw [replay_append]
    exact ih.note r

end Memory

def Client.memory (c : Client) : Memory := ⟨c.diagnostics, c.registrations⟩

/-! Messages. -/

theorem NoticeMethod.understand_word (m : NoticeMethod) (params : Json) : understand m.word params =
    match m.shape.read? params with
    | some j => .known m j
    | none => .malformed := by
  cases m <;> rfl

theorem ServerMethod.understand_word {m : ServerMethod} {s : Shape} (shape : m.shape? = some s)
    (params : Json) :
    understand m.word params =
      match s.read? params with
      | some j => .known m j
      | none => .malformed := by
  cases m <;> cases shape <;> rfl

theorem NoticeMethod.word_of_known {method : String} {params j : Json} {m : NoticeMethod}
    (h : understand method params = .known m j) : m.word = method := by
  unfold understand at h
  split at h
  · cases h
  · next n found =>
    have own := List.find?_some found
    split at h
    · cases h
      exact beq_iff_eq.mp own
    · cases h

theorem ServerMethod.word_of_known {method : String} {params j : Json} {m : ServerMethod}
    (h : understand method params = .known m j) : m.word = method := by
  rcases understand_cases method params with ⟨unknown, -⟩ | ⟨n, own, ⟨unfit, -⟩ | ⟨i, known, -⟩⟩
  · cases h.symm.trans unknown
  · cases h.symm.trans unfit
  · cases h.symm.trans known
    exact own

namespace Listener
variable (settings : Option Json) (c : Client)

theorem memory_onNotification (n : Notification) :
    (onNotification c n).client.memory = c.memory.replay (Message.notification n).remarks := by
  obtain ⟨method, params⟩ := n
  simp only [onNotification, Message.remarks]
  by_cases own : method = "textDocument/publishDiagnostics"
  · subst own
    have understood := NoticeMethod.diagnostics.understand_word params
    simp only [NoticeMethod.word, NoticeMethod.shape] at understood
    rw [understood, if_pos rfl]
    cases read : Shape.diagnosticsParams.read? params with
    | none =>
      simp only [Remark.ofPublication?, read]
      rfl
    | some j =>
      simp only [Remark.ofPublication?_of_read read]
      rfl
  · rw [if_neg own]
    split
    · rfl
    · next understood => exact absurd (NoticeMethod.word_of_known understood).symm own
    · rfl
    · rfl

theorem memory_onRequest (r : Request) :
    (onRequest settings c r).client.memory = c.memory.replay (Message.request r).remarks := by
  obtain ⟨id, method, params⟩ := r
  simp only [onRequest, Message.remarks]
  by_cases registers : method = "client/registerCapability"
  · subst registers
    have understood := ServerMethod.understand_word (m := .register) rfl params
    simp only [ServerMethod.word] at understood
    rw [understood, if_pos rfl]
    cases read : Shape.registrationParams.read? params with
    | none =>
      simp only [Remark.ofRegistrations?, read]
      rfl
    | some j =>
      simp only [Remark.ofRegistrations?_of_read read, Option.getD_some, Memory.replay_registered]
      rfl
  · rw [if_neg registers]
    by_cases unregisters : method = "client/unregisterCapability"
    · subst unregisters
      have understood := ServerMethod.understand_word (m := .unregister) rfl params
      simp only [ServerMethod.word] at understood
      rw [understood, if_pos rfl]
      cases read : Shape.unregistrationParams.read? params with
      | none =>
        simp only [Remark.ofUnregistrations?, read]
        rfl
      | some j =>
        simp only [Remark.ofUnregistrations?_of_read read, Option.getD_some, Memory.replay_unregistered]
        rfl
    · rw [if_neg unregisters]
      split
      · rfl
      · rfl
      · next m j understood =>
        -- of the methods that are known, only these two are about what is registered
        have own := ServerMethod.word_of_known understood
        cases m with
        | register => exact absurd own.symm registers
        | unregister => exact absurd own.symm unregisters
        | _ => rfl

theorem memory_react (m : Message) : (react settings c m).client.memory = c.memory.replay m.remarks := by
  cases m with
  | request r => exact memory_onRequest settings c r
  | notification n => exact memory_onNotification c n
  | response r => rfl

/-- Whether the answer can be queued does not matter. -/
theorem memory_dispatch (m : Message) : (dispatch settings c m).1.memory = c.memory.replay m.remarks := by
  rw [← memory_react settings c m]
  unfold dispatch
  generalize react settings c m = r
  obtain ⟨c', reports, response⟩ := r
  cases response with
  | none => rfl
  | some response =>
    dsimp only
    split
    · next told =>
      obtain ⟨-, rfl⟩ := Client.enqueue_ok told
      rfl
    · rfl

end Listener

/-! Everything else. -/

namespace Client
variable {c c' : Client}

theorem memory_enqueue {o : Outbound} (h : c.enqueue o = .ok c') : c'.memory = c.memory := by
  obtain ⟨-, rfl⟩ := enqueue_ok h
  rfl

theorem memory_openDocument {d : Document} {change : DocumentChange} (h : c.openDocument d = .ok (change, c')) :
    c'.memory = c.memory := by
  unfold openDocument at h
  split at h
  · cases h
    rfl
  · simp only [bind, Except.bind] at h
    split at h
    · cases h
    · next c₁ told =>
      obtain ⟨-, rfl⟩ := enqueue_ok told
      cases h
      rfl

/-- The diagnostics of a document go when it is closed, and only then. -/
theorem memory_closeDocument {uri : String} {change : DocumentChange}
    (h : c.closeDocument uri = .ok (change, c')) :
    c'.memory = if change = .closed then c.memory.note (.closed uri) else c.memory := by
  unfold closeDocument at h
  split at h
  · simp only [bind, Except.bind] at h
    split at h
    · cases h
    · next c₁ told =>
      obtain ⟨-, rfl⟩ := enqueue_ok told
      cases h
      rfl
  · cases h
    rfl

theorem Asked.memory {q : Query} {now : Nat} {s : AskStage} {turn : Turn AskStage Answer}
    (h : c.Asked q now s c' turn) : c'.memory = c.memory := by
  cases h with
  | _ => rfl

theorem memory_lookUp (q : CachedQuery) (now : Nat) (c : Client) (s : LookStage) :
    (c.lookUp q now s).1.memory = c.memory := by
  cases s with
  | fresh =>
    simp only [lookUp]
    split <;> rfl
  | asking s =>
    have asked := (exchange_asked q.query now c s).memory
    simp only [lookUp]
    split
    · next asked' =>
      rw [← asked]
      exact congrArg (fun went => went.1.memory) asked'.symm
    · next asked' =>
      rw [← asked]
      exact congrArg (fun went => went.1.memory) asked'.symm

theorem memory_greet (now : Nat) (c : Client) (s : GreetStage) : (c.greet now s).1.memory = c.memory := by
  have greeted := greet_greeted now c s
  generalize c.greet now s = went at greeted
  obtain ⟨c', turn⟩ := went
  cases greeted with
  | known | waits | unmade | starts => rfl
  | stays asked | goes asked | fails asked | untold asked | succeeds asked => exact asked.memory

theorem memory_sayExit (c : Client) : c.sayExit.memory = c.memory := by
  unfold sayExit
  split
  · next told => exact memory_enqueue told
  · rfl

end Client

theorem Link.memory_shutDown (now : Nat) (l : Link) (s : EndStage) :
    (l.shutDown now s).1.client.memory = l.client.memory := by
  cases s with
  | asking s =>
    rcases exchanged : l.client.exchange .shutdown now s with ⟨c, turn⟩
    have asked := (Client.exchange_asked .shutdown now l.client s).memory
    rw [exchanged] at asked
    simp only [shutDown, Client.ask, exchanged]
    cases turn with
    | wait d => exact asked
    | go s' => exact asked
    | done a =>
      simp only [Turn.lift]
      cases c.outcome .shutdown a with
      | error e => exact asked
      | ok j => exact c.memory_sayExit.trans asked
  | closing r =>
    simp only [shutDown]
    split
    · next closing => exact Client.memory_enqueue closing
    · rfl
  | flushing r deadline =>
    simp only [shutDown]
    split <;> rfl
  | draining r =>
    simp only [shutDown]
    split
    · split <;> rfl
    · rfl
  | reaping r deadline =>
    simp only [shutDown]
    split
    · rfl
    · split <;> rfl

/-- No call remembers or forgets anything. -/
theorem ClientCall.memory_step (now : Nat) (l : Link) (call : ClientCall) :
    (call.step now l).1.client.memory = l.client.memory := by
  cases call with
  | ask q s => exact (Client.exchange_asked q now l.client s).memory
  | lookUp q s => exact Client.memory_lookUp q now l.client s
  | greet s => exact Client.memory_greet now l.client s
  | shutDown s => exact l.memory_shutDown now s

namespace Link
variable {l l' : Link}

/-- The document that an act closes. -/
def closed? (l : Link) : Act → Option String
  | .closeDocument uri =>
    match l.client.closeDocument uri with
    | .ok (.closed, _) => some uri
    | _ => none
  | _ => none

theorem closed?_of_open {uri : String} (known : uri ∈ l.client.documents)
    (isOpen : l.client.isQueueOpen = true) : l.closed? (.closeDocument uri) = some uri := by
  simp only [closed?, Client.closeDocument, if_pos known, Client.notify, Client.send, Client.enqueue,
    if_pos isOpen]
  rfl

/-- What is remarked at an act: what the listener hears, and that a document is closed. -/
def remarks (l : Link) (a : Act) : List Remark :=
  (l.heard? a).toList.flatMap Message.remarks ++ (l.closed? a).toList.map .closed

theorem remarks_hears {m : Message} (heard : l.heard? (.hand .listener) = some m) :
    l.remarks (.hand .listener) = m.remarks := by
  simp [remarks, heard, closed?]

theorem memory_route (l : Link) (m : Message) : (l.route m).client.memory = l.client.memory := by
  obtain ⟨r, -, accepted⟩ | ⟨-, ⟨-, left⟩ | ⟨-, entered⟩⟩ := l.route_cases m
  · rw [accepted]
    simp only [Client.accept]
    split <;> rfl
  · rw [left]
  · rw [entered]

theorem memory_listen (l : Link) : (l.act (.hand .listener)).1.client.memory =
    l.client.memory.replay (l.remarks (.hand .listener)) := by
  obtain ⟨client, toServer, isInputOpen, toClient, server, decoder, inbox, listening, isCancelled, process,
    holdsProcess⟩ := l
  cases listening with
  | waiting => rfl
  | stopped => rfl
  | running settings =>
    cases inbox with
    | nil =>
      simp only [act, step, listen]
      split <;> rfl
    | cons m rest =>
      have heard := Listener.memory_dispatch settings client m
      simp only [act, step, listen, remarks, heard?, closed?]
      simpa using heard

theorem memory_hand {h : Hand} (other : h ≠ .listener) (l : Link) :
    (l.act (.hand h)).1.client.memory = l.client.memory := by
  simp only [act]
  cases stepped : l.step h with
  | none => rfl
  | some went =>
    obtain ⟨l', reports⟩ := went
    cases step_cases stepped with
    | writes _ moved => cases moved <;> rfl
    | serves _ moved => cases moved <;> rfl
    | reads _ moved =>
      cases moved with
      | ends d => rfl
      | routes m d => exact memory_route { l with decoder := d } m
      | takes d => rfl
    | listens => exact absurd rfl other

theorem memory_settled {r : Except Error Client} (h : ∀ c, r = .ok c → c.memory = l.client.memory) :
    (l.settled r).client.memory = l.client.memory := by
  cases r with
  | ok c => exact h c rfl
  | error e => rfl

/-- What an act does to the memory is what is remarked at it. -/
theorem memory_act (l : Link) (a : Act) :
    (l.act a).1.client.memory = l.client.memory.replay (l.remarks a) := by
  cases a with
  | hand h =>
    by_cases listener : h = .listener
    · subst listener
      exact l.memory_listen
    · have silent : l.remarks (.hand h) = [] := by
        cases h with
        | listener => exact absurd rfl listener
        | _ => rfl
      rw [silent]
      exact memory_hand listener l
  | emit bs =>
    simp only [act, emit]
    split <;> rfl
  | serverEnds => rfl
  | openDocument d =>
    refine memory_settled fun c opened => ?_
    cases result : l.client.openDocument d with
    | error e => simp [result, Except.map] at opened
    | ok went =>
      obtain ⟨change, c'⟩ := went
      simp only [result, Except.map, Except.ok.injEq] at opened
      exact opened ▸ Client.memory_openDocument result
  | closeDocument uri =>
    cases result : l.client.closeDocument uri with
    | error e =>
      simp only [act, remarks, heard?, closed?, result]
      rfl
    | ok went =>
      obtain ⟨change, c'⟩ := went
      have closed := Client.memory_closeDocument result
      simp only [act, remarks, heard?, closed?, result]
      cases change with
      | closed => exact closed
      | _ => exact closed
  | notify method params => exact memory_settled fun c told => Client.memory_enqueue told
  | respond r => exact memory_settled fun c told => Client.memory_enqueue told
  | startListening settings =>
    simp only [act, startListening]
    split <;> rfl
  | stopListening =>
    simp only [act, stopListening]
    split <;> rfl
  | terminate =>
    simp only [act, terminate]
    split <;> rfl

end Link

/-! Runs. -/

namespace Session
variable {s : Session}

/-- All that is remarked in a run, in order. -/
def remarks (s : Session) (moves : List Move) : List Remark :=
  (s.acts moves).flatMap fun found => found.1.remarks found.2

theorem memory_next (s : Session) {move : Move} (other : ∀ a, move ≠ .act a) :
    (s.next move).link.client.memory = s.link.client.memory := by
  cases move with
  | begin call =>
    simp only [next]
    split <;> rfl
  | turn k =>
    simp only [next]
    split
    · rfl
    · next call _ => exact ClientCall.memory_step s.now s.link call
  | act a => exact absurd rfl (other a)
  | pass time => rfl

theorem memory_run (s : Session) (moves : List Move) :
    (s.run moves).link.client.memory = s.link.client.memory.replay (s.remarks moves) := by
  induction moves generalizing s with
  | nil => rfl
  | cons move moves ih =>
    have rest : (s.run (move :: moves)).link.client.memory =
        (s.next move).link.client.memory.replay ((s.next move).remarks moves) := ih (s.next move)
    rw [rest]
    rcases act_or_other move with ⟨a, rfl⟩ | other
    · -- what is remarked at the act comes before all that is remarked later
      have here : (s.next (.act a)).link.client.memory = s.link.client.memory.replay (s.link.remarks a) :=
        s.link.memory_act a
      rw [here, ← Memory.replay_append]
      rfl
    · rw [s.memory_next other, remarks, remarks, acts_other other]

theorem bearsId_remarks {r : Remark} {moves : List Move} (there : r ∈ s.remarks moves) : r.BearsId := by
  obtain ⟨⟨l, a⟩, -, there⟩ := List.mem_flatMap.mp there
  rcases List.mem_append.mp there with heard | closed
  · obtain ⟨m, -, there⟩ := List.mem_flatMap.mp heard
    exact Message.bearsId_remarks there
  · obtain ⟨uri, -, rfl⟩ := List.mem_map.mp closed
    trivial

/-- A client that remembered nothing remembers just what it was last told. The diagnostics of a document are
those of the last publication that came after the document was last closed, and none if there is no such
publication. The registrations stand in the order of their identifiers, each under the one it bears: they are
those that were made and not taken back since, each as it was made last. -/
theorem last_told_is_remembered (blank : s.link.client.memory = ⟨[], []⟩) (moves : List Move) :
    let told := s.remarks moves
    let c := (s.run moves).link.client
    (∀ uri, c.diagnosticsOf uri =
        (Remark.latest (Remark.published? uri) (Remark.closes uri) told).getD []) ∧
      c.registrations.Sorted ∧
      ∀ id registration,
        ((id, registration) ∈ c.registrations ↔
          Remark.latest (Remark.registered? id) (Remark.unregisters id) told = some registration) ∧
        ((id, registration) ∈ c.registrations → registration.get? "id" = some (.str id)) := by
  intro told c
  have replayed : c.memory = Memory.replay ⟨[], []⟩ told := blank ▸ s.memory_run moves
  have recalls : c.memory.Recalls told := replayed ▸ Memory.recalls_replay told
  have holds (id : String) (registration : Json) : (id, registration) ∈ c.registrations ↔
      Remark.latest (Remark.registered? id) (Remark.unregisters id) told = some registration := by
    rw [← recalls.registrations id]
    exact recalls.sorted.mem_iff_get?
  refine ⟨recalls.diagnostics, recalls.sorted, fun id registration =>
    ⟨holds id registration, fun there => ?_⟩⟩
  obtain ⟨r, said, own⟩ := Remark.exists_of_latest ((holds id registration).mp there)
  have bears := bearsId_remarks said
  cases r with
  | registered i registration' =>
    obtain ⟨rfl, ⟨⟩⟩ := Option.ite_none_right_eq_some.mp own
    exact bears
  | _ => cases own

/-! A server that says a thing or two of one document and of itself. -/

def onePlace : Json := .obj [("character", .int 0), ("line", .int 0)]

def oneRange : Json := .obj [("end", onePlace), ("start", onePlace)]

def oneDiagnostic : Json := .obj [("message", .str "unused"), ("range", oneRange)]

def publication : Json := .obj [("diagnostics", .arr [oneDiagnostic]), ("uri", .str "file:///a")]

def oneRegistration (id method : String) : Json := .obj [("id", .str id), ("method", .str method)]

def batch : Json := .obj [("registrations",
  .arr [oneRegistration "1" "hover", oneRegistration "2" "hover", oneRegistration "1" "rename"])]

def revocation : Json := .obj [("unregisterations",
  .arr [oneRegistration "3" "hover", oneRegistration "2" "hover"])]

section
open Shape Json
variable (fuel : Nat) (outer : Shape)

theorem read_publication : readFrom fuel outer diagnosticsParams publication = some publication := by
  have normal : Url.normal? "file:///a" = some "file:///a" := by decide +kernel
  have place : readFrom fuel outer position onePlace = some onePlace := by
    simp [position, onePlace, need, uint32, readFrom, readFields, Record.ofJson?, Record.occurrences,
      Record.required, List.lookup_cons, Json.int?, Json.object]
    rfl
  have range : readFrom fuel outer Shape.range oneRange = some oneRange := by
    simp [Shape.range, oneRange, place, need, readFrom, readFields, Record.ofJson?, Record.occurrences,
      Record.required, List.lookup_cons, Json.object]
    rfl
  have diagnostic : readFrom fuel outer Shape.diagnostic oneDiagnostic = some oneDiagnostic := by
    simp [Shape.diagnostic, oneDiagnostic, range, need, may, readFrom, readFields, Record.ofJson?,
      Record.occurrences, Record.required, Record.optional, List.lookup_cons, Json.object, Json.str?]
    rfl
  simp [diagnosticsParams, publication, diagnostic, normal, need, may, readFrom, readFields, Record.ofJson?,
    Record.occurrences, Record.required, Record.optional, List.lookup_cons, Json.object, Json.str?]
  rfl

theorem read_batch : readFrom fuel outer registrationParams batch = some batch := by
  have entry (id method : String) : readFrom fuel outer Shape.registration (oneRegistration id method) =
      some (oneRegistration id method) := by
    simp [Shape.registration, oneRegistration, need, may, readFrom, readFields, Record.ofJson?,
      Record.occurrences, Record.required, Record.optional, List.lookup_cons, Json.object, Json.str?]
    rfl
  simp [registrationParams, batch, entry, need, readFrom, readFields, Record.ofJson?, Record.occurrences,
    Record.required, Json.object]
  rfl

theorem read_revocation : readFrom fuel outer unregistrationParams revocation = some revocation := by
  simp [unregistrationParams, revocation, oneRegistration, need, readFrom, readFields, Record.ofJson?,
    Record.occurrences, Record.required, List.lookup_cons, Json.object, Json.str?]
  rfl

end

def chatter : List Message := [
  .request ⟨.number 1, "client/registerCapability", batch⟩,
  .notification ⟨"textDocument/publishDiagnostics", publication⟩,
  .request ⟨.number 2, "client/unregisterCapability", revocation⟩]

theorem remarks_chatter : chatter.flatMap Message.remarks =
    [.registered "1" (oneRegistration "1" "hover"), .registered "2" (oneRegistration "2" "hover"),
      .registered "1" (oneRegistration "1" "rename"), .published "file:///a" [oneDiagnostic],
      .unregistered "3", .unregistered "2"] := by
  simp [chatter, Message.remarks, Remark.ofRegistrations?, Remark.ofUnregistrations?, Remark.ofPublication?,
    Shape.read?, read_publication, read_batch, read_revocation, Remark.items?, Remark.text?]
  simp [batch, publication, revocation, oneRegistration, Json.get?, Json.list?, Json.str?, List.lookup_cons]

/-- The document is open, and the listener has yet to take the messages up. -/
def chatty : Session :=
  let s := start 0 "fake" ⟨⟨"/"⟩, [], none, 9⟩ (.ofScript .empty) none
  { s with link := { s.link with
      client := { s.link.client with documents := ["file:///a"] }
      listening := .running none
      inbox := chatter } }

/-- The messages are taken up, and then the document is closed. -/
def chattyMoves : List Move := List.replicate 3 (.act (.hand .listener)) ++ [.act (.closeDocument "file:///a")]

theorem remarks_chatty : chatty.remarks chattyMoves =
    chatter.flatMap Message.remarks ++ [.closed "file:///a"] := by
  let attended := chatty.run (List.replicate 3 (.act (.hand .listener)))
  have heard : chatty.link.client.Queues Listener.IsResponse attended.link.client :=
    (Listener.queues_dispatch none _ _).trans <|
      (Listener.queues_dispatch none _ _).trans (Listener.queues_dispatch none _ _)
  have closed : attended.link.closed? (.closeDocument "file:///a") = some "file:///a" :=
    Link.closed?_of_open (heard.documents ▸ List.mem_cons_self) (heard.isQueueOpen.trans rfl)
  have told : chatty.remarks chattyMoves = chatty.link.remarks (.hand .listener) ++
      ((chatty.run [.act (.hand .listener)]).link.remarks (.hand .listener) ++
      ((chatty.run [.act (.hand .listener), .act (.hand .listener)]).link.remarks (.hand .listener) ++
      (attended.link.remarks (.closeDocument "file:///a") ++ []))) := rfl
  rw [told, Link.remarks_hears rfl, Link.remarks_hears rfl, Link.remarks_hears rfl]
  simp [Link.remarks, Link.heard?, closed, chatter]

/-- The diagnostics are gone with the document; a registration is there as it was made last, or was taken
back. -/
theorem chatty_remembers :
    let c := (chatty.run chattyMoves).link.client
    c.diagnosticsOf "file:///a" = [] ∧ ("1", oneRegistration "1" "rename") ∈ c.registrations ∧
      ∀ registration, ("2", registration) ∉ c.registrations := by
  intro c
  obtain ⟨diagnostics, -, registrations⟩ := last_told_is_remembered (s := chatty) rfl chattyMoves
  rw [remarks_chatty, remarks_chatter] at diagnostics registrations
  refine ⟨diagnostics "file:///a", (registrations "1" _).1.mpr rfl, fun registration there => ?_⟩
  cases (registrations "2" registration).1.mp there

end Session

end LanguageHost
