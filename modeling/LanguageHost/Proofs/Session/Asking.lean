import LanguageHost.Proofs.Session.Acts

/-!
What one step of a query can do, stage by stage, and one of a greeting, and what a call does around the query
that it makes.
-/
namespace LanguageHost

namespace AskStage

/-- The number of the query, once it has one. -/
def id? : AskStage → Option Int32
  | .fresh | .admitted => none
  | .numbered id | .registered id | .refused id | .waiting id _ | .expired id | .withdrawn id => some id

/-- The number under which a response would be handed to the query. -/
def listed? : AskStage → Option Int32
  | .registered id | .refused id | .waiting id _ | .expired id => some id
  | _ => none

/-- The number under which the query has been queued. -/
def sent? : AskStage → Option Int32
  | .waiting id _ | .expired id | .withdrawn id => some id
  | _ => none

theorem id?_of_listed? {s : AskStage} {id : Int32} (h : s.listed? = some id) : s.id? = some id := by
  cases s with
  | fresh | admitted | numbered | withdrawn => cases h
  | registered | refused | waiting | expired => exact h

end AskStage

/-- What the server is told once its answer to the first request is known. -/
def Message.initialized : Message := .notification ⟨"initialized", .obj []⟩

namespace Client

/-- What the server is told of a query that was given up. -/
def cancellation (id : RequestId) : Message :=
  .notification ⟨"$/cancelRequest", .obj [("id", id.toJson)]⟩

def append (c : Client) (m : Message) : Client := { c with outbound := c.outbound ++ [.message m] }

/-- All that a step of a query can do: the stage, the client afterwards, and how it goes on. -/
inductive Asked (q : Query) (now : Nat) (c : Client) :
    AskStage → Client → Turn AskStage Answer → Prop
  | barred (closed : c.isClosed = true) : Asked q now c .fresh c (.done .gone)
  | admitted (connected : c.isClosed = false) : Asked q now c .fresh c (.go .admitted)
  | numbered :
      Asked q now c .admitted { c with nextId := c.nextId + 1 } (.go (.numbered c.nextId))
  | registered (id : Int32) :
      Asked q now c (.numbered id) (c.register (.number id)) (.go (.registered id))
  | sent (id : Int32) (isOpen : c.isQueueOpen = true) :
      Asked q now c (.registered id) (c.append (q.request id))
        (.go (.waiting id (now + c.config.timeout)))
  | refused (id : Int32) (shut : c.isQueueOpen = false) :
      Asked q now c (.registered id) c (.go (.refused id))
  | left (id : Int32) : Asked q now c (.refused id) (c.withdraw (.number id)) (.done .gone)
  | answered (id : Int32) (deadline : Nat) (r : Response) (there : r ∈ c.arrived)
      (own : r.id = .number id) :
      Asked q now c (.waiting id deadline)
        { c with arrived := c.arrived.filter fun r => r.id ≠ .number id } (.done (.response r))
  | lost (id : Int32) (deadline : Nat) (missing : ∀ r ∈ c.arrived, r.id ≠ .number id)
      (unlisted : .number id ∉ c.pending) :
      Asked q now c (.waiting id deadline) c (.done .gone)
  | expired (id : Int32) (deadline : Nat) (listed : .number id ∈ c.pending) (due : deadline ≤ now) :
      Asked q now c (.waiting id deadline) c (.go (.expired id))
  | waits (id : Int32) (deadline : Nat) (listed : .number id ∈ c.pending) (early : now < deadline) :
      Asked q now c (.waiting id deadline) c (.wait (some deadline))
  | withdrawn (id : Int32) :
      Asked q now c (.expired id) (c.withdraw (.number id)) (.go (.withdrawn id))
  | told (id : Int32) (isOpen : c.isQueueOpen = true) :
      Asked q now c (.withdrawn id) (c.append (cancellation (.number id))) (.done .late)
  | untold (id : Int32) (shut : c.isQueueOpen = false) :
      Asked q now c (.withdrawn id) c (.done .late)

theorem take?_some {c c' : Client} {id : RequestId} {r : Response} (h : c.take? id = some (r, c')) :
    r ∈ c.arrived ∧ r.id = id ∧ c' = { c with arrived := c.arrived.filter fun r => r.id ≠ id } := by
  obtain ⟨found, searched, same⟩ := Option.map_eq_some_iff.mp h
  cases same
  exact ⟨List.mem_of_find?_eq_some searched, by simpa using List.find?_some searched, rfl⟩

theorem take?_none {c : Client} {id : RequestId} (h : c.take? id = none) :
    ∀ r ∈ c.arrived, r.id ≠ id := by
  have searched := Option.map_eq_none_iff.mp h
  intro r there
  simpa using List.find?_eq_none.mp searched r there

theorem exchange_asked (q : Query) (now : Nat) (c : Client) (s : AskStage) :
    c.Asked q now s (c.exchange q now s).1 (c.exchange q now s).2 := by
  cases s with
  | fresh =>
    simp only [exchange]
    split
    · next closed => exact .barred closed
    · next connected => exact .admitted (by simpa using connected)
  | admitted => exact .numbered
  | numbered id => exact .registered id
  | registered id =>
    simp only [exchange]
    split
    · next refused => exact .refused id (enqueue_error refused).1
    · next sent =>
      obtain ⟨isOpen, rfl⟩ := enqueue_ok sent
      exact .sent id isOpen
  | refused id => exact .left id
  | waiting id deadline =>
    simp only [exchange]
    split
    · next taken =>
      obtain ⟨there, own, rfl⟩ := take?_some taken
      exact .answered id deadline _ there own
    · next missing =>
      split
      · next unlisted => exact .lost id deadline (take?_none missing) unlisted
      · next waited =>
        have listed : .number id ∈ c.pending := Decidable.not_not.mp waited
        split
        · next due => exact .expired id deadline listed due
        · next early => exact .waits id deadline listed (Nat.lt_of_not_le early)
  | expired id => exact .withdrawn id
  | withdrawn id =>
    simp only [exchange, cancel]
    split
    · next told =>
      obtain ⟨isOpen, rfl⟩ := enqueue_ok told
      exact .told id isOpen
    · next untold => exact .untold id (enqueue_error untold).1

/-- All that a step of a greeting can do. -/
inductive Greeted (now : Nat) (c : Client) :
    GreetStage → Client → Turn GreetStage (Except Error Json) → Prop
  | known (j : Json) (there : c.greeting = some j) : Greeted now c .fresh c (.done (.ok j))
  | waits (unknown : c.greeting = none) (busy : c.isGreeting = true) : Greeted now c .fresh c (.wait none)
  | unmade (e : Error) (unknown : c.greeting = none) (idle : c.isGreeting = false)
      (bad : greetingQuery c.config = .error e) : Greeted now c .fresh c (.done (.error e))
  | starts (q : Query) (unknown : c.greeting = none) (idle : c.isGreeting = false)
      (made : greetingQuery c.config = .ok q) :
      Greeted now c .fresh { c with isGreeting := true } (.go (.asking q .fresh))
  | stays {q : Query} {s : AskStage} {c' : Client} {d : Option Nat} (asked : c.Asked q now s c' (.wait d)) :
      Greeted now c (.asking q s) c' (.wait d)
  | goes {q : Query} {s s' : AskStage} {c' : Client} (asked : c.Asked q now s c' (.go s')) :
      Greeted now c (.asking q s) c' (.go (.asking q s'))
  | fails {q : Query} {s : AskStage} {c' : Client} {a : Answer} {e : Error}
      (asked : c.Asked q now s c' (.done a)) (failed : c'.outcome q a = .error e) :
      Greeted now c (.asking q s) { c' with isGreeting := false } (.done (.error e))
  | untold {q : Query} {s : AskStage} {c' : Client} {a : Answer} {j : Json}
      (asked : c.Asked q now s c' (.done a)) (understood : c'.outcome q a = .ok j)
      (shut : c'.isQueueOpen = false) :
      Greeted now c (.asking q s) { c' with isGreeting := false } (.done (.error c'.gone))
  | succeeds {q : Query} {s : AskStage} {c' : Client} {a : Answer} {j : Json}
      (asked : c.Asked q now s c' (.done a)) (understood : c'.outcome q a = .ok j)
      (isOpen : c'.isQueueOpen = true) :
      Greeted now c (.asking q s) { c'.append .initialized with isGreeting := false, greeting := some j }
        (.done (.ok j))

theorem greet_greeted (now : Nat) (c : Client) (s : GreetStage) :
    c.Greeted now s (c.greet now s).1 (c.greet now s).2 := by
  cases s with
  | fresh =>
    simp only [greet]
    split
    · next j there => exact .known j there
    · next unknown =>
      split
      · next busy => exact .waits unknown busy
      · next idle =>
        have idle : c.isGreeting = false := by simpa using idle
        split
        · next e bad => exact .unmade e unknown idle bad
        · next q made => exact .starts q unknown idle made
  | asking q s =>
    rcases exchanged : c.exchange q now s with ⟨c', turn⟩
    have asked := exchange_asked q now c s
    rw [exchanged] at asked
    simp only [greet, ask, exchanged]
    cases turn with
    | wait d => exact .stays asked
    | go s' => exact .goes asked
    | done a =>
      simp only [Turn.lift]
      cases outcome : c'.outcome q a with
      | error e => exact .fails asked outcome
      | ok j =>
        dsimp only
        split
        · next e refused =>
          obtain ⟨shut, rfl⟩ := enqueue_error refused
          exact .untold asked outcome shut
        · next told =>
          obtain ⟨isOpen, rfl⟩ := enqueue_ok told
          exact .succeeds asked outcome isOpen

variable {q : Query} {now : Nat} {c c' : Client} {s : AskStage} {turn : Turn AskStage Answer}

theorem Asked.continues (h : c.Asked q now s c' turn) : c.Continues c' := by
  cases h with
  | barred | admitted | refused | lost | expired | waits | untold => exact .refl c
  | numbered | registered | sent | left | answered | withdrawn | told => exact ⟨rfl, id, id, id, rfl⟩

theorem Asked.cache (h : c.Asked q now s c' turn) : c'.cache = c.cache := by
  cases h with
  | _ => rfl

end Client

/-- The stage of a machine after a turn, unless it has ended. -/
def Turn.rest? (stage : σ) : Turn σ α → Option σ
  | wait _ => some stage
  | go stage => some stage
  | done _ => none

theorem Turn.rest?_lift {σ τ α β : Type} (stage : σ → τ) (finish : α → β) (s : σ) (turn : Turn σ α) :
    (turn.lift stage finish).rest? (stage s) = (turn.rest? s).map stage := by
  cases turn with
  | _ => rfl

/-! Calls. -/

namespace ClientCall

/-- How far a call has come with its query; a call that makes none any more is behind it. -/
inductive Phase where
  | ahead
  | asking (q : Query) (s : AskStage)
  | behind

/-- The phase after a step of the query. -/
def Phase.after (q : Query) (s : AskStage) : Turn AskStage Answer → Phase
  | .wait _ => .asking q s
  | .go s => .asking q s
  | .done _ => .behind

def phase : ClientCall → Phase
  | .ask q s => .asking q s
  | .lookUp _ .fresh => .ahead
  | .lookUp q (.asking s) => .asking q.query s
  | .greet .fresh => .ahead
  | .greet (.asking q s) => .asking q s
  | .shutDown (.asking s) => .asking .shutdown s
  | .shutDown _ => .behind

/-- The phase of a call that may have ended. -/
def phase? : Option ClientCall → Phase
  | none => .behind
  | some call => call.phase

/-- A step of a call: what it does to the phase and, beside its query, to the client. -/
inductive Moved (R : Client → Client → Prop) (now : Nat) (c : Client) : Phase → Client → Phase → Prop
  | waits {c' : Client} (h : R c c') : Moved R now c .ahead c' .ahead
  | spared {c' : Client} (h : R c c') : Moved R now c .ahead c' .behind
  | starts {c' : Client} (q : Query) (h : R c c') : Moved R now c .ahead c' (.asking q .fresh)
  | asks {c' : Client} (q : Query) (s : AskStage) (h : R (c.exchange q now s).1 c') :
      Moved R now c (.asking q s) c' (.after q s (c.exchange q now s).2)
  | ends {c' : Client} (h : R c c') : Moved R now c .behind c' .behind

section

variable {R R' : Client → Client → Prop} {now : Nat} {c c' : Client} {p p' : Phase}

theorem Moved.mono (h : Moved R now c p c' p') (weaker : ∀ c c', R c c' → R' c c') :
    Moved R' now c p c' p' := by
  cases h with
  | waits h => exact .waits (weaker _ _ h)
  | spared h => exact .spared (weaker _ _ h)
  | starts q h => exact .starts q (weaker _ _ h)
  | asks q s h => exact .asks q s (weaker _ _ h)
  | ends h => exact .ends (weaker _ _ h)

theorem Moved.continues (h : Moved Client.Beside now c p c' p') : c.Continues c' := by
  cases h with
  | waits h | spared h | starts q h | ends h => exact h.toContinues
  | asks q s h => exact (Client.exchange_asked q now c s).continues.trans h.toContinues

theorem Moved.cache (h : Moved Client.Aside now c p c' p') : c'.cache = c.cache := by
  cases h with
  | waits h | spared h | starts q h | ends h => exact h.cache
  | asks q s h => exact h.cache.trans (Client.exchange_asked q now c s).cache

/-- A step of the query of a call. -/
theorem moved_asks {c₁ : Client} {q : Query} {s : AskStage} {turn : Turn AskStage Answer}
    (exchanged : c.exchange q now s = (c₁, turn)) (h : R c₁ c') (phase : p' = .after q s turn) :
    Moved R now c (.asking q s) c' p' := by
  have aside : R (c.exchange q now s).1 c' := by rwa [exchanged]
  have asked := Moved.asks q s aside
  rwa [exchanged, ← phase] at asked

end

variable (now : Nat) (l : Link)

/-- What a step of a call does. -/
def Steps (R : Client → Client → Prop) (call : ClientCall) : Prop :=
  Moved R now l.client call.phase (call.step now l).1.client (phase? ((call.step now l).2.rest? call))

theorem steps_ask (q : Query) (s : AskStage) : Steps now l Client.Aside (.ask q s) := by
  rcases exchanged : l.client.exchange q now s with ⟨c, turn⟩
  simp only [Steps, step, Link.onClient, Client.ask, exchanged]
  refine moved_asks exchanged (.refl c) ?_
  cases turn with
  | _ => rfl

theorem steps_lookUp (q : CachedQuery) (s : LookStage) : Steps now l Client.Beside (.lookUp q s) := by
  have beside (c : Client) (cache : ResponseCache) : c.Beside { c with cache := cache } :=
    ⟨⟨rfl, id, id, id, rfl⟩, rfl, rfl, rfl⟩
  cases s with
  | fresh =>
    simp only [Steps, step, Link.onClient, Client.lookUp]
    rcases l.client.cache.get q.key q.type with ⟨_ | j, cache⟩
    · exact .starts q.query (beside _ cache)
    · exact .spared (beside _ cache)
  | asking s =>
    rcases exchanged : l.client.exchange q.query now s with ⟨c, turn⟩
    simp only [Steps, step, Link.onClient, Client.lookUp, Client.ask, exchanged]
    cases turn with
    | wait d => exact moved_asks exchanged (.refl c) rfl
    | go s' => exact moved_asks exchanged (.refl c) rfl
    | done a =>
      simp only [Turn.lift]
      cases c.outcome q.query a with
      | error e => exact moved_asks exchanged (.refl c) rfl
      | ok j => exact moved_asks exchanged (beside c _) rfl

theorem steps_greet (s : GreetStage) : Steps now l Client.Aside (.greet s) := by
  have aside (c : Client) (greets : Bool) (greeting : Option Json) :
      c.Aside { c with isGreeting := greets, greeting := greeting } :=
    ⟨⟨⟨rfl, id, id, id, rfl⟩, rfl, rfl, rfl⟩, rfl⟩
  cases s with
  | fresh =>
    simp only [Steps, step, Link.onClient, Client.greet]
    cases l.client.greeting with
    | some j => exact .spared (.refl _)
    | none =>
      dsimp only
      split
      · exact .waits (.refl _)
      · split
        · exact .spared (.refl _)
        · next q _ => exact .starts q (aside l.client true none)
  | asking q s =>
    rcases exchanged : l.client.exchange q now s with ⟨c, turn⟩
    simp only [Steps, step, Link.onClient, Client.greet, Client.ask, exchanged]
    cases turn with
    | wait d => exact moved_asks exchanged (.refl c) rfl
    | go s' => exact moved_asks exchanged (.refl c) rfl
    | done a =>
      simp only [Turn.lift]
      cases c.outcome q a with
      | error e => exact moved_asks exchanged (aside c false _) rfl
      | ok j =>
        dsimp only
        split
        · exact moved_asks exchanged (aside c false _) rfl
        · next told => exact moved_asks exchanged ((Client.aside_of_enqueue told).trans (aside _ _ _)) rfl

theorem steps_shutDown (s : EndStage) : Steps now l Client.Aside (.shutDown s) := by
  cases s with
  | asking s =>
    rcases exchanged : l.client.exchange .shutdown now s with ⟨c, turn⟩
    simp only [Steps, step, Link.shutDown, Client.ask, exchanged]
    cases turn with
    | wait d => exact moved_asks exchanged (.refl c) rfl
    | go s' => exact moved_asks exchanged (.refl c) rfl
    | done a =>
      simp only [Turn.lift]
      cases c.outcome .shutdown a with
      | error e => exact moved_asks exchanged (.refl c) rfl
      | ok j => exact moved_asks exchanged c.aside_sayExit rfl
  | closing r =>
    simp only [Steps, step, Link.shutDown]
    split
    · next closing => exact .ends (Client.aside_of_enqueue closing)
    · exact .ends (.refl _)
  | flushing r deadline =>
    simp only [Steps, step, Link.shutDown]
    split
    · exact .ends (.refl _)
    · exact .ends (.refl _)
  | draining r =>
    have disconnected (d : Option Nat) :
        l.client.Aside { l.client with drainUntil := d, isClosed := true } :=
      ⟨⟨⟨rfl, fun _ => rfl, id, id, rfl⟩, rfl, rfl, rfl⟩, rfl⟩
    simp only [Steps, step, Link.shutDown]
    split
    · split
      · exact .ends (disconnected _)
      · exact .ends (disconnected _)
    · exact .ends ⟨⟨⟨rfl, id, id, id, rfl⟩, rfl, rfl, rfl⟩, rfl⟩
  | reaping r deadline =>
    simp only [Steps, step, Link.shutDown]
    split
    · exact .ends (.refl _)
    · split
      · exact .ends (.refl _)
      · exact .ends (.refl _)

theorem steps (call : ClientCall) : Steps now l Client.Beside call := by
  have weaker (c c' : Client) (aside : c.Aside c') : c.Beside c' := aside.toBeside
  cases call with
  | ask q s => exact (steps_ask now l q s).mono weaker
  | lookUp q s => exact steps_lookUp now l q s
  | greet s => exact (steps_greet now l s).mono weaker
  | shutDown s => exact (steps_shutDown now l s).mono weaker

end ClientCall

end LanguageHost
