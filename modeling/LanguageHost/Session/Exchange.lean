import LanguageHost.Session.Link

/-!
What takes more than one step: a query, a query whose answer may be kept, the first request, and the end
of a session. Each is a machine whose stages say how far it has come; between two of its steps anything
else may happen.
-/
namespace LanguageHost

/-- What comes of one step: waiting for something to happen, at most until a time, going on from a stage,
or an end. -/
inductive Turn (σ α : Type) where
  | wait (deadline : Option Nat)
  | go (stage : σ)
  | done (a : α)

namespace Turn

/-- The same turn of a machine that this one is a part of. -/
def lift (stage : σ → τ) (finish : α → β) : Turn σ α → Turn τ β
  | wait d => wait d
  | go s => go (stage s)
  | done a => done (finish a)

end Turn

/-- How long a server gets to end once its input is closed, in milliseconds. -/
def patience : Nat := 5000

inductive AskStage where
  | fresh
  /-- the connection was there -/
  | admitted
  | numbered (id : Int32)
  | registered (id : Int32)
  /-- nothing is sent any more -/
  | refused (id : Int32)
  | waiting (id : Int32) (deadline : Nat)
  /-- the time is over -/
  | expired (id : Int32)
  /-- nobody waits any more, which the server is still to be told -/
  | withdrawn (id : Int32)
deriving DecidableEq, Repr

/-- The request of a query with a number. -/
def Query.request (q : Query) (id : Int32) : Message := .request ⟨.number id, q.method, q.params⟩

/-- A query up to its answer: it takes a number, registers, is queued, and waits. Its response may come at
any moment from when it is registered, so each of these is a step of its own. -/
def Client.exchange (q : Query) (now : Nat) (c : Client) : AskStage → Client × Turn AskStage Answer
  | .fresh => (c, if c.isClosed then .done .gone else .go .admitted)
  | .admitted =>
    let (id, c) := c.number
    (c, .go (.numbered id))
  | .numbered id => (c.register (.number id), .go (.registered id))
  | .registered id =>
    match c.send (q.request id) with
    | .error _ => (c, .go (.refused id))
    | .ok c => (c, .go (.waiting id (now + c.config.timeout)))
  | .refused id => (c.withdraw (.number id), .done .gone)
  | .waiting id deadline =>
    match c.take? (.number id) with
    | some (r, c) => (c, .done (.response r))
    | none =>
      if .number id ∉ c.pending then (c, .done .gone)
      else if deadline ≤ now then (c, .go (.expired id))
      else (c, .wait (some deadline))
  | .expired id => (c.withdraw (.number id), .go (.withdrawn id))
  | .withdrawn id => (c.cancel (.number id), .done .late)

/-- A query, and what it comes to. -/
def Client.ask (q : Query) (now : Nat) (c : Client) (s : AskStage) :
    Client × Turn AskStage (Except Error Json) :=
  let (c, turn) := c.exchange q now s
  (c, turn.lift id (c.outcome q))

inductive LookStage where
  | fresh
  | asking (s : AskStage)
deriving DecidableEq, Repr

/-- A query that looks for a kept answer first, and keeps the answer that it gets. -/
def Client.lookUp (q : CachedQuery) (now : Nat) (c : Client) :
    LookStage → Client × Turn LookStage (Except Error Json)
  | .fresh =>
    match c.cache.get q.key q.type with
    | (some j, cache) => ({ c with cache := cache }, .done (.ok j))
    | (none, cache) => ({ c with cache := cache }, .go (.asking .fresh))
  | .asking s =>
    match c.ask q.query now s with
    | (c, .done (.ok j)) => ({ c with cache := c.cache.set q.key q.type j }, .done (.ok j))
    | (c, turn) => (c, turn.lift .asking id)

inductive GreetStage where
  | fresh
  | asking (q : Query) (s : AskStage)

/-- The first request. Only one is under way at a time, and once one has succeeded its result stands. -/
def Client.greet (now : Nat) (c : Client) :
    GreetStage → Client × Turn GreetStage (Except Error Json)
  | .fresh =>
    match c.greeting with
    | some j => (c, .done (.ok j))
    | none =>
      if c.isGreeting then (c, .wait none)
      else match greetingQuery c.config with
        | .error e => (c, .done (.error e))
        | .ok q => ({ c with isGreeting := true }, .go (.asking q .fresh))
  | .asking q s =>
    match c.ask q now s with
    | (c, .done (.error e)) => ({ c with isGreeting := false }, .done (.error e))
    | (c, .done (.ok j)) =>
      match c.notify "initialized" (.obj []) with
      | .error e => ({ c with isGreeting := false }, .done (.error e))
      | .ok c => ({ c with isGreeting := false, greeting := some j }, .done (.ok j))
    | (c, turn) => (c, turn.lift (.asking q) id)

inductive EndStage where
  | asking (s : AskStage)
  | closing (result : Except Error Unit)
  | flushing (result : Except Error Unit) (deadline : Nat)
  | draining (result : Except Error Unit)
  | reaping (result : Except Error Unit) (deadline : Nat)

namespace EndStage

def fresh : EndStage := .asking .fresh

end EndStage

/-- The client after its last word, which is only valid once the server agreed to end. -/
def Client.sayExit (c : Client) : Client :=
  match c.notify "exit" .null with
  | .ok c => c
  | .error _ => c

/-- The end of a session: the server is asked to end and told to exit, its input is closed, and it gets
time to end by itself. However that goes the connection is gone afterwards. -/
def Link.shutDown (now : Nat) (l : Link) : EndStage → Link × Turn EndStage (Except Error Unit)
  | .asking s =>
    match l.client.ask .shutdown now s with
    | (c, .done (.ok _)) => ({ l with client := c.sayExit }, .go (.closing (.ok ())))
    | (c, .done (.error e)) => ({ l with client := c }, .go (.closing (.error e)))
    | (c, .go s) => ({ l with client := c }, .go (.asking s))
    | (c, .wait d) => ({ l with client := c }, .wait d)
  | .closing r =>
    match l.client.enqueue .close with
    | .ok c => ({ l with client := c }, .go (.flushing r (now + patience)))
    | .error _ => (l, .go (.draining r))
  | .flushing r deadline =>
    if !l.client.isQueueOpen || deadline ≤ now then (l, .go (.draining r))
    else (l, .wait (some deadline))
  | .draining r =>
    let deadline := l.client.drainUntil.getD (now + patience)
    let l := { l with client := { l.client with drainUntil := some deadline } }
    if !l.client.isReading || deadline ≤ now then
      let l := { l with client := l.client.disconnect }
      if l.holdsProcess then ({ l with holdsProcess := false }, .go (.reaping r (now + patience)))
      else (l, .done r)
    else (l, .wait (some deadline))
  | .reaping r deadline =>
    if !l.server.isOpen then (l, .done r)
    else if deadline ≤ now then (l.kill, .done r)
    else (l, .wait (some deadline))

/-- The end of a session that is listened to: the listener stops first, so that nothing is dealt with
while the connection closes. -/
inductive StopStage where
  | silencing
  | ending (s : EndStage)

def Link.stop (now : Nat) (l : Link) : StopStage → Link × Turn StopStage (Except Error Unit)
  | .silencing => (l.stopListening, .go (.ending .fresh))
  | .ending s =>
    let (l, turn) := l.shutDown now s
    (l, turn.lift .ending id)

/-- One step of a machine that works on the client. -/
def Link.onClient (l : Link) (step : Client → Client × α) : Link × α :=
  let (c, a) := step l.client
  ({ l with client := c }, a)

/-- A call on a client, and how far it has come. -/
inductive ClientCall where
  | ask (q : Query) (s : AskStage)
  | lookUp (q : CachedQuery) (s : LookStage)
  | greet (s : GreetStage)
  | shutDown (s : EndStage)

/-- What a call comes to, on one client or on a whole fleet. -/
inductive Outcome where
  | answered (r : Except Error Json)
  | ended (r : Except Error Unit)
  | started (r : Except Error Nat)
  | allEnded (r : Except ShutdownErrors Unit)

/-- One step of a call. -/
def ClientCall.step (now : Nat) (l : Link) : ClientCall → Link × Turn ClientCall Outcome
  | .ask q s => l.onClient fun c =>
      let (c, turn) := c.ask q now s
      (c, turn.lift (.ask q) .answered)
  | .lookUp q s => l.onClient fun c =>
      let (c, turn) := c.lookUp q now s
      (c, turn.lift (.lookUp q) .answered)
  | .greet s => l.onClient fun c =>
      let (c, turn) := c.greet now s
      (c, turn.lift .greet .answered)
  | .shutDown s =>
      let (l, turn) := l.shutDown now s
      (l, turn.lift .shutDown .ended)

end LanguageHost
