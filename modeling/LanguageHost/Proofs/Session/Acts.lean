import LanguageHost.Session.Exchange

/-!
What happens on a link besides calls, and what it leaves alone. First what one step of a hand can do, with
what it found: whatever is said of the steps of a link is said of these. Most of it is no concern of queries:
only the reader hands responses over and ends the waiting, and only a document that is opened or closed takes
kept answers away.
-/
namespace LanguageHost

/-! The hands, one by one. -/

namespace Link

variable {l l' : Link}

/-- All that a step of the writer can do. -/
inductive Writes (l : Link) : Link → Prop
  | stops (cause : l.client.isClosed = true ∨ (∃ rest, l.client.outbound = .close :: rest) ∨
      l.server.isOpen = false) : Writes l l.closeInput
  | sends (m : Message) (rest : List Outbound) (connected : l.client.isClosed = false)
      (front : l.client.outbound = .message m :: rest) (alive : l.server.isOpen = true) :
      Writes l { l with client := { l.client with outbound := rest }, toServer := l.toServer ++ [m] }

theorem write_cases (h : l.write = some l') : l.client.isQueueOpen = true ∧ l.Writes l' := by
  unfold write at h
  split at h
  · cases h
  next opened =>
  refine ⟨by simpa using opened, ?_⟩
  split at h
  · next closed =>
    cases h
    exact .stops (.inl closed)
  next connected =>
  split at h
  · cases h
  · next rest front =>
    cases h
    exact .stops (.inr (.inl ⟨rest, front⟩))
  · next m rest front =>
    split at h
    · next alive =>
      cases h
      exact .sends m rest (by simpa using connected) front alive
    · next ended =>
      cases h
      exact .stops (.inr (.inr (by simpa using ended)))

/-- All that a step of the server can do. -/
inductive Serves (l : Link) : Link → Prop
  | takes (m : Message) (rest : List Message) (front : l.toServer = m :: rest) :
      Serves l { l with
        toServer := rest
        toClient := l.toClient ++ (l.server.receive m).1
        server := (l.server.receive m).2 }
  | finishes (empty : l.toServer = []) (shut : l.isInputOpen = false)
      (ended : l.server.finish.isOpen = false) : Serves l { l with server := l.server.finish }

theorem serve_cases (h : l.serve = some l') : l.server.isOpen = true ∧ l.Serves l' := by
  unfold serve at h
  split at h
  · cases h
  next opened =>
  refine ⟨by simpa using opened, ?_⟩
  split at h
  · next m rest front =>
    cases h
    exact .takes m rest front
  · next empty =>
    split at h
    · cases h
    · next shut =>
      dsimp only at h
      split at h
      · cases h
      · next ended =>
        cases h
        exact .finishes empty (by simpa using shut) (by simpa using ended)

/-- What the reader makes of a message: a response is accepted, and all else comes into the inbox unless
nobody will take it up. -/
theorem route_cases (l : Link) (m : Message) :
    (∃ r, m = .response r ∧ l.route m = { l with client := l.client.accept r }) ∨
      (∀ r, m ≠ .response r) ∧
        (l.listening = .stopped ∧ l.route m = l ∨
          l.listening ≠ .stopped ∧ l.route m = { l with inbox := l.inbox ++ [m] }) := by
  unfold route
  split
  · next r => exact .inl ⟨r, rfl, rfl⟩
  · next other =>
    refine .inr ⟨other, ?_⟩
    split
    · next stopped => exact .inl ⟨stopped, rfl⟩
    · next up => exact .inr ⟨up, rfl⟩

/-- All that a step of the reader can do. -/
inductive Reads (l : Link) : Link → Prop
  | ends (d : Decoder) (cause : l.client.isClosed = true ∨ (∃ e, l.decoder.next = .fault e d) ∨
      l.decoder.next = .wait d ∧ l.toClient = [] ∧ l.server.isOpen = false) :
      Reads l { l with decoder := d }.closeOutput
  | routes (m : Message) (d : Decoder) (connected : l.client.isClosed = false)
      (next : l.decoder.next = .message m d) : Reads l ({ l with decoder := d }.route m)
  | takes (d : Decoder) (connected : l.client.isClosed = false) (next : l.decoder.next = .wait d) :
      Reads l { l with decoder := d.push l.toClient, toClient := [] }

theorem read_cases (h : l.read = some l') : l.client.isReading = true ∧ l.Reads l' := by
  unfold read at h
  split at h
  · cases h
  next reads =>
  refine ⟨by simpa using reads, ?_⟩
  split at h
  · next closed =>
    cases h
    exact .ends l.decoder (.inl closed)
  next connected =>
  replace connected : l.client.isClosed = false := by simpa using connected
  split at h
  · next m d next =>
    cases h
    exact .routes m d connected next
  · next e d next =>
    cases h
    exact .ends d (.inr (.inl ⟨e, next⟩))
  · next d next =>
    split at h
    · cases h
      exact .takes d connected next
    · next empty =>
      split at h
      · cases h
      · next ended =>
        cases h
        exact .ends d (.inr (.inr ⟨next, by simpa using empty, by simpa using ended⟩))

/-- All that a step of the listener can do, and what it reports. -/
inductive Listens (l : Link) : Link → List Report → Prop
  | hears (settings : Option Json) (m : Message) (rest : List Message)
      (running : l.listening = .running settings) (front : l.inbox = m :: rest) :
      Listens l { l with client := (Listener.dispatch settings l.client m).1, inbox := rest }
        (Listener.dispatch settings l.client m).2
  | ends (settings : Option Json) (running : l.listening = .running settings) (empty : l.inbox = [])
      (silent : l.client.isReading = false) : Listens l { l with listening := .stopped } [.exited]

theorem listen_cases {reports : List Report} (h : l.listen = some (l', reports)) : l.Listens l' reports := by
  unfold listen at h
  split at h
  · next settings running =>
    split at h
    · next m rest front =>
      cases h
      exact .hears settings m rest running front
    · next empty =>
      split at h
      · cases h
      · next silent =>
        cases h
        exact .ends settings running empty (by simpa using silent)
  · cases h

/-- All that a step of any hand can do. -/
inductive Moves (l : Link) : Hand → Link → List Report → Prop
  | writes {l' : Link} (isOpen : l.client.isQueueOpen = true) (moved : l.Writes l') : Moves l .writer l' []
  | serves {l' : Link} (alive : l.server.isOpen = true) (moved : l.Serves l') : Moves l .server l' []
  | reads {l' : Link} (reading : l.client.isReading = true) (moved : l.Reads l') : Moves l .reader l' []
  | listens {l' : Link} {reports : List Report} (moved : l.Listens l' reports) : Moves l .listener l' reports

theorem step_cases {hand : Hand} {reports : List Report} (h : l.step hand = some (l', reports)) :
    l.Moves hand l' reports := by
  cases hand with
  | writer =>
    obtain ⟨l', moved, same⟩ := Option.map_eq_some_iff.mp h
    cases same
    obtain ⟨isOpen, writes⟩ := write_cases moved
    exact .writes isOpen writes
  | server =>
    obtain ⟨l', moved, same⟩ := Option.map_eq_some_iff.mp h
    cases same
    obtain ⟨alive, serves⟩ := serve_cases moved
    exact .serves alive serves
  | reader =>
    obtain ⟨l', moved, same⟩ := Option.map_eq_some_iff.mp h
    cases same
    obtain ⟨reading, reads⟩ := read_cases moved
    exact .reads reading reads
  | listener => exact .listens (listen_cases h)

end Link

/-! What is no concern of queries. -/

namespace Client

/-- A later client is one for the same language; what is gone stays gone. -/
structure Continues (c c' : Client) : Prop where
  language : c'.language = c.language
  closed : c.isClosed = true → c'.isClosed = true
  queue : c'.isQueueOpen = true → c.isQueueOpen = true
  reading : c'.isReading = true → c.isReading = true
  config : c'.config = c.config

namespace Continues

theorem refl (c : Client) : c.Continues c := ⟨rfl, id, id, id, rfl⟩

theorem trans {a b c : Client} (h : a.Continues b) (h' : b.Continues c) : a.Continues c :=
  ⟨h'.language.trans h.language, fun closed => h'.closed (h.closed closed),
    fun queue => h.queue (h'.queue queue), fun reading => h.reading (h'.reading reading),
    h'.config.trans h.config⟩

end Continues

/-- A step that is no concern of queries; it may be one of kept answers. -/
structure Beside (c c' : Client) : Prop extends Continues c c' where
  nextId : c'.nextId = c.nextId
  pending : c'.pending = c.pending
  arrived : c'.arrived = c.arrived

namespace Beside

theorem refl (c : Client) : c.Beside c := ⟨.refl c, rfl, rfl, rfl⟩

theorem trans {a b c : Client} (h : a.Beside b) (h' : b.Beside c) : a.Beside c :=
  ⟨h.toContinues.trans h'.toContinues, h'.nextId.trans h.nextId, h'.pending.trans h.pending,
    h'.arrived.trans h.arrived⟩

end Beside

/-- A step that is no concern of kept answers either. -/
structure Aside (c c' : Client) : Prop extends Beside c c' where
  cache : c'.cache = c.cache

namespace Aside

theorem refl (c : Client) : c.Aside c := ⟨.refl c, rfl⟩

theorem trans {a b c : Client} (h : a.Aside b) (h' : b.Aside c) : a.Aside c :=
  ⟨h.toBeside.trans h'.toBeside, h'.cache.trans h.cache⟩

end Aside

/-- What is done to queries and kept answers by something that is not a call, and the document that was
opened or closed by it. -/
inductive Stirred (c : Client) : Option String → Client → Prop
  | still : Stirred c none c
  | accepts (r : Response) (reading : c.isReading = true) : Stirred c none (c.accept r)
  | releases (reading : c.isReading = true) : Stirred c none c.release
  | reopens (uri : String) :
      Stirred c (some uri) { c with cache := (c.cache.invalidateDocument uri).2 }

theorem accept_continues (c : Client) (r : Response) : c.Continues (c.accept r) := by
  unfold accept
  split
  · exact ⟨rfl, id, id, id, rfl⟩
  · exact .refl c

theorem Stirred.continues {c c' : Client} {uri? : Option String} (h : c.Stirred uri? c') :
    c.Continues c' := by
  cases h with
  | still => exact .refl c
  | accepts r => exact c.accept_continues r
  | releases => exact ⟨rfl, id, id, id, rfl⟩
  | reopens uri => exact ⟨rfl, id, id, id, rfl⟩

/-! Messages and documents. -/

theorem enqueue_ok {c c' : Client} {o : Outbound} (h : c.enqueue o = .ok c') :
    c.isQueueOpen = true ∧ c' = { c with outbound := c.outbound ++ [o] } := by
  unfold enqueue at h
  split at h
  · next isOpen =>
    injection h with same
    exact ⟨isOpen, same.symm⟩
  · cases h

theorem enqueue_error {c : Client} {o : Outbound} {e : Error} (h : c.enqueue o = .error e) :
    c.isQueueOpen = false ∧ e = c.gone := by
  unfold enqueue at h
  split at h
  · cases h
  · next closed =>
    injection h with same
    exact ⟨by simpa using closed, same.symm⟩

theorem aside_of_enqueue {c c' : Client} {o : Outbound} (h : c.enqueue o = .ok c') : c.Aside c' := by
  obtain ⟨-, rfl⟩ := enqueue_ok h
  exact ⟨⟨⟨rfl, id, id, id, rfl⟩, rfl, rfl, rfl⟩, rfl⟩

theorem openDocument_ok {c c' : Client} {d : Document} {change : DocumentChange}
    (h : c.openDocument d = .ok (change, c')) :
    (change = .alreadyOpen ∧ c' = c) ∨
      (change = .opened ∧ ({ c with cache := (c.cache.invalidateDocument d.uri).2 } : Client).Aside c') := by
  unfold openDocument at h
  split at h
  · cases h
    exact .inl ⟨rfl, rfl⟩
  · simp only [bind, Except.bind] at h
    split at h
    · cases h
    · next c₁ told =>
      obtain ⟨-, rfl⟩ := enqueue_ok told
      cases h
      exact .inr ⟨rfl, ⟨⟨⟨rfl, id, id, id, rfl⟩, rfl, rfl, rfl⟩, rfl⟩⟩

theorem closeDocument_ok {c c' : Client} {uri : String} {change : DocumentChange}
    (h : c.closeDocument uri = .ok (change, c')) :
    (change = .notOpen ∧ c' = c) ∨
      (change = .closed ∧ ({ c with cache := (c.cache.invalidateDocument uri).2 } : Client).Aside c') := by
  unfold closeDocument at h
  split at h
  · simp only [bind, Except.bind] at h
    split at h
    · cases h
    · next c₁ told =>
      obtain ⟨-, rfl⟩ := enqueue_ok told
      cases h
      exact .inr ⟨rfl, ⟨⟨⟨rfl, id, id, id, rfl⟩, rfl, rfl, rfl⟩, rfl⟩⟩
  · cases h
    exact .inl ⟨rfl, rfl⟩

theorem aside_disconnect (c : Client) : c.Aside c.disconnect :=
  ⟨⟨⟨rfl, fun _ => rfl, id, id, rfl⟩, rfl, rfl, rfl⟩, rfl⟩

theorem aside_sayExit (c : Client) : c.Aside c.sayExit := by
  unfold sayExit
  split
  · next told => exact aside_of_enqueue told
  · exact .refl c

end Client

/-! The listener. -/

namespace Listener

theorem aside_answer (settings : Option Json) (c : Client) (m : ServerMethod) (params : Json) :
    c.Aside (answer settings c m params).2.1 := by
  cases m with
  | register => exact ⟨⟨⟨rfl, id, id, id, rfl⟩, rfl, rfl, rfl⟩, rfl⟩
  | unregister => exact ⟨⟨⟨rfl, id, id, id, rfl⟩, rfl, rfl, rfl⟩, rfl⟩
  | _ => exact .refl c

theorem aside_react (settings : Option Json) (c : Client) (m : Message) :
    c.Aside (react settings c m).client := by
  cases m with
  | request r =>
    simp only [react, onRequest]
    split
    · exact .refl c
    · exact .refl c
    · exact aside_answer ..
  | notification n =>
    simp only [react, onNotification]
    split
    · exact .refl c
    · exact ⟨⟨⟨rfl, id, id, id, rfl⟩, rfl, rfl, rfl⟩, rfl⟩
    · exact .refl c
    · exact .refl c
  | response r => exact .refl c

theorem aside_dispatch (settings : Option Json) (c : Client) (m : Message) :
    c.Aside (dispatch settings c m).1 := by
  have reacted := aside_react settings c m
  unfold dispatch
  generalize react settings c m = r at reacted ⊢
  rcases r with ⟨c', reports, response⟩
  cases response with
  | none => exact reacted
  | some response =>
    simp only
    split
    · next told => exact reacted.trans (Client.aside_of_enqueue told)
    · exact reacted

end Listener

namespace Link

/-- A later link has a later client; a process that was given up is not taken back. -/
structure Continues (l l' : Link) : Prop where
  client : l.client.Continues l'.client
  released : l.holdsProcess = false → l'.holdsProcess = false

namespace Continues

theorem refl (l : Link) : l.Continues l := ⟨.refl _, id⟩

theorem trans {a b c : Link} (h : a.Continues b) (h' : b.Continues c) : a.Continues c :=
  ⟨h.client.trans h'.client, fun released => h'.released (h.released released)⟩

theorem of_client {l : Link} {c : Client} (h : l.client.Continues c) :
    l.Continues { l with client := c } := ⟨h, id⟩

end Continues

/-- What a step that is no call's does to a link, and the document that was opened or closed by it. -/
structure Stirs (l : Link) (uri? : Option String) (l' : Link) : Prop where
  client : ∃ c, l.client.Stirred uri? c ∧ c.Aside l'.client
  released : l.holdsProcess = false → l'.holdsProcess = false

namespace Stirs

theorem continues {l l' : Link} {uri? : Option String} (h : l.Stirs uri? l') : l.Continues l' := by
  obtain ⟨⟨c, stirred, aside⟩, released⟩ := h
  exact ⟨stirred.continues.trans aside.toContinues, released⟩

theorem of_aside {l l' : Link} (h : l.client.Aside l'.client)
    (released : l.holdsProcess = false → l'.holdsProcess = false) : l.Stirs none l' :=
  ⟨⟨l.client, .still, h⟩, released⟩

end Stirs

/-! The hands. -/

theorem stirs_closeInput (l : Link) : l.Stirs none l.closeInput :=
  .of_aside ⟨⟨⟨rfl, id, nofun, id, rfl⟩, rfl, rfl, rfl⟩, rfl⟩ id

theorem stirs_closeOutput {l : Link} (reading : l.client.isReading = true) : l.Stirs none l.closeOutput :=
  ⟨⟨_, .releases reading, ⟨⟨⟨rfl, fun _ => rfl, id, nofun, rfl⟩, rfl, rfl, rfl⟩, rfl⟩⟩, id⟩

theorem stirs_write {l l' : Link} (h : l.Writes l') : l.Stirs none l' := by
  cases h with
  | stops => exact l.stirs_closeInput
  | sends => exact .of_aside ⟨⟨⟨rfl, id, id, id, rfl⟩, rfl, rfl, rfl⟩, rfl⟩ id

theorem stirs_serve {l l' : Link} (h : l.Serves l') : l.Stirs none l' := by
  cases h with
  | takes | finishes => exact .of_aside (.refl _) id

theorem stirs_route {l : Link} (reading : l.client.isReading = true) (m : Message) :
    l.Stirs none (l.route m) := by
  obtain ⟨r, -, accepted⟩ | ⟨-, ⟨-, left⟩ | ⟨-, entered⟩⟩ := l.route_cases m
  · rw [accepted]
    exact ⟨⟨_, .accepts r reading, .refl _⟩, id⟩
  · rw [left]
    exact .of_aside (.refl _) id
  · rw [entered]
    exact .of_aside (.refl _) id

theorem stirs_read {l l' : Link} (reading : l.client.isReading = true) (h : l.Reads l') :
    l.Stirs none l' := by
  cases h with
  | ends d =>
    have ended := stirs_closeOutput (l := { l with decoder := d }) reading
    exact ⟨ended.client, ended.released⟩
  | routes m d =>
    have routed := stirs_route (l := { l with decoder := d }) reading m
    exact ⟨routed.client, routed.released⟩
  | takes => exact .of_aside (.refl _) id

theorem stirs_listen {l l' : Link} {reports : List Report} (h : l.Listens l' reports) :
    l.Stirs none l' := by
  cases h with
  | hears => exact .of_aside (Listener.aside_dispatch ..) id
  | ends => exact .of_aside (.refl _) id

theorem stirs_step {l l' : Link} {hand : Hand} {reports : List Report}
    (h : l.step hand = some (l', reports)) : l.Stirs none l' := by
  cases step_cases h with
  | writes _ moved => exact stirs_write moved
  | serves _ moved => exact stirs_serve moved
  | reads reading moved => exact stirs_read reading moved
  | listens moved => exact stirs_listen moved

/-! Everything that is no call's. -/

/-- What may happen on a link at any time: a hand moves, the server sends something or ends, the host
does something that is done at once. -/
inductive Act where
  | hand (h : Hand)
  | emit (bs : Octets)
  | serverEnds
  | openDocument (d : Document)
  | closeDocument (uri : String)
  | notify (method : String) (params : Json)
  | respond (r : Response)
  | startListening (settings : Option Json)
  | stopListening
  | terminate

/-- The link with the client that an operation has made, if it has made one. -/
def settled (l : Link) : Except Error Client → Link
  | .ok c => { l with client := c }
  | .error _ => l

/-- An act that cannot be done now changes nothing. -/
def act (l : Link) : Act → Link × List Report
  | .hand h => (l.step h).getD (l, [])
  | .emit bs => ((l.emit bs).getD l, [])
  | .serverEnds => (l.kill, [])
  | .openDocument d => (l.settled ((l.client.openDocument d).map Prod.snd), [])
  | .closeDocument uri => (l.settled ((l.client.closeDocument uri).map Prod.snd), [])
  | .notify method params => (l.settled (l.client.notify method params), [])
  | .respond r => (l.settled (l.client.respond r), [])
  | .startListening settings => ((l.startListening settings).2, [])
  | .stopListening => (l.stopListening, [])
  | .terminate => (l.terminate, [])

/-- The document that an act opens or closes. -/
def reopened (l : Link) : Act → Option String
  | .openDocument d =>
    match l.client.openDocument d with
    | .ok (.opened, _) => some d.uri
    | _ => none
  | .closeDocument uri =>
    match l.client.closeDocument uri with
    | .ok (.closed, _) => some uri
    | _ => none
  | _ => none

theorem stirs_settled {l : Link} {r : Except Error Client} (h : ∀ c, r = .ok c → l.client.Aside c) :
    l.Stirs none (l.settled r) := by
  cases r with
  | ok c => exact .of_aside (h c rfl) id
  | error e => exact .of_aside (.refl _) id

theorem stirs_startListening (l : Link) (settings : Option Json) :
    l.Stirs none (l.startListening settings).2 := by
  unfold startListening
  split
  · exact .of_aside (.refl _) id
  · exact .of_aside (.refl _) id

theorem stirs_stopListening (l : Link) : l.Stirs none l.stopListening := by
  unfold stopListening
  split
  · exact .of_aside (.refl _) id
  · exact .of_aside (.refl _) id

theorem stirs_terminate (l : Link) : l.Stirs none l.terminate := by
  unfold terminate
  dsimp only
  split
  · exact .of_aside (Client.aside_disconnect _) fun _ => rfl
  · exact .of_aside (Client.aside_disconnect _) id

theorem stirs_openDocument (l : Link) (d : Document) :
    l.Stirs (l.reopened (.openDocument d)) (l.act (.openDocument d)).1 := by
  simp only [reopened, act]
  cases result : l.client.openDocument d with
  | error e => exact .of_aside (.refl _) id
  | ok opened =>
    obtain ⟨change, c⟩ := opened
    rcases Client.openDocument_ok result with ⟨rfl, rfl⟩ | ⟨rfl, aside⟩
    · exact .of_aside (.refl _) id
    · exact ⟨⟨_, .reopens d.uri, aside⟩, id⟩

theorem stirs_closeDocument (l : Link) (uri : String) :
    l.Stirs (l.reopened (.closeDocument uri)) (l.act (.closeDocument uri)).1 := by
  simp only [reopened, act]
  cases result : l.client.closeDocument uri with
  | error e => exact .of_aside (.refl _) id
  | ok closed =>
    obtain ⟨change, c⟩ := closed
    rcases Client.closeDocument_ok result with ⟨rfl, rfl⟩ | ⟨rfl, aside⟩
    · exact .of_aside (.refl _) id
    · exact ⟨⟨_, .reopens uri, aside⟩, id⟩

theorem stirs_act (l : Link) (a : Act) : l.Stirs (l.reopened a) (l.act a).1 := by
  cases a with
  | hand h =>
    simp only [act, reopened]
    cases moved : l.step h with
    | none => exact .of_aside (.refl _) id
    | some moved' => exact stirs_step moved
  | emit bs =>
    simp only [act, emit, reopened]
    split
    · exact .of_aside (.refl _) id
    · exact .of_aside (.refl _) id
  | serverEnds => exact .of_aside (.refl _) id
  | openDocument d => exact l.stirs_openDocument d
  | closeDocument uri => exact l.stirs_closeDocument uri
  | notify method params => exact stirs_settled fun c told => Client.aside_of_enqueue told
  | respond r => exact stirs_settled fun c told => Client.aside_of_enqueue told
  | startListening settings => exact l.stirs_startListening settings
  | stopListening => exact l.stirs_stopListening
  | terminate => exact l.stirs_terminate

end Link

end LanguageHost
