import LanguageHost.Proofs.Session.Run
import LanguageHost.Proofs.Table

/-!
What each step of a call does to the cache of answers: a query is served from it or not, and one that
returns from a response puts its answer in.
-/
namespace LanguageHost

/-! The cache. -/

namespace ResponseCache

variable {c : ResponseCache} {key : CacheKey} {type : ValueType} {entry : CacheKey × CacheEntry}

theorem mem_others : entry ∈ c.others key ↔ entry ∈ c.entries ∧ entry.1 ≠ key := by
  simp [others]

theorem mem_of_find? {e : CacheEntry} (h : c.find? key = some e) : (key, e) ∈ c.entries :=
  Table.mem_of_lookup h

theorem mem_of_mem_get (h : entry ∈ (c.get key type).2.entries) : entry ∈ c.entries := by
  unfold get at h
  split at h
  · exact h
  · next e found =>
    rcases List.mem_cons.mp h with rfl | other
    · exact mem_of_find? found
    · exact (mem_others.mp other).1

/-- What is got is the reading of an entry of the same type. -/
theorem get_some {j : Json} (h : (c.get key type).1 = some j) :
    ∃ e, (key, e) ∈ c.entries ∧ e.type = type.name ∧ type.shape.read? e.value = some j := by
  unfold get at h
  split at h
  · cases h
  · next e found =>
    dsimp only at h
    split at h
    · next same => exact ⟨e, mem_of_find? found, same, h⟩
    · cases h

theorem mem_of_mem_set {value : Json} (h : entry ∈ (c.set key type value).entries) :
    entry = (key, ⟨type.name, value.canonical⟩) ∨ entry ∈ c.entries := by
  rcases List.mem_cons.mp h with new | old
  · exact .inl new
  · exact .inr (mem_others.mp (List.mem_of_mem_take old)).1

theorem get_set (c : ResponseCache) (key : CacheKey) (type : ValueType) (value : Json) :
    ((c.set key type value).get key type).1 = type.shape.read? value.canonical := by
  simp [set, get, find?]

theorem mem_invalidateDocument {uri : String} :
    entry ∈ (c.invalidateDocument uri).2.entries ↔ entry ∈ c.entries ∧ entry.1.document ≠ uri := by
  simp [invalidateDocument]

end ResponseCache

/-! Steps of calls. -/

namespace Event

/-- Events that are no concern of the cache. -/
def IsAside : Event → Prop
  | .kept _ _ _ | .served _ _ _ | .reopened _ => False
  | _ => True

theorem aside_queue (k : Option Nat) (c c' : Client) : ∀ e ∈ queue k c c', e.IsAside := by
  intro e there
  obtain ⟨o, -, added⟩ := List.mem_filterMap.mp (List.mem_reverse.mp there)
  cases o with
  | message m =>
    cases added
    trivial
  | close => cases added

theorem aside_ofTurn (k : Nat) (turn : Turn AskStage Answer) : ∀ e ∈ ofTurn k turn, e.IsAside := by
  intro e there
  unfold ofTurn at there
  split at there
  · cases List.mem_singleton.mp there
    trivial
  · cases List.mem_singleton.mp there
    trivial
  · cases there

theorem queue_of_outbound {k : Option Nat} {c c' : Client} (h : c'.outbound = c.outbound) :
    queue k c c' = [] := by
  simp [queue, h]

end Event

namespace Client

theorem outcome_ok {c : Client} {q : Query} {a : Answer} {j : Json} (h : c.outcome q a = .ok j) :
    ∃ r, a = .response r ∧ understand q.method q.result r = .ok j := by
  cases a with
  | response r => exact ⟨r, rfl, h⟩
  | gone => cases h
  | late => cases h

/-- Only a query that waits returns from a response, and the response carries its number. -/
theorem Asked.response {q : Query} {now : Nat} {c c' : Client} {st : AskStage} {r : Response}
    (h : c.Asked q now st c' (.done (.response r))) :
    ∃ id, st.sent? = some id ∧ r.id = .number id ∧ c'.outbound = c.outbound := by
  cases h with
  | answered id deadline _ there own => exact ⟨id, rfl, own, rfl⟩

end Client

namespace ClientCall

/-- All that a step of a call can do to the cache, and what is told of it. -/
inductive Caching (now : Nat) (l : Link) (k : Nat) (call : ClientCall) : Prop
  | leaves (cache : (call.step now l).1.client.cache = l.client.cache)
      (aside : ∀ e ∈ Event.ofCall now l k call, e.IsAside)
  | misses (q : CachedQuery) (cache : (call.step now l).1.client.cache = (l.client.cache.get q.key q.type).2)
      (aside : ∀ e ∈ Event.ofCall now l k call, e.IsAside)
  | serves (q : CachedQuery) (j : Json) (hit : (l.client.cache.get q.key q.type).1 = some j)
      (cache : (call.step now l).1.client.cache = (l.client.cache.get q.key q.type).2)
      (told : Event.ofCall now l k call = [.served k q j])
  | keeps (q : CachedQuery) (j : Json) (st : AskStage) (r : Response) (id : Int32)
      (phase : call.phase = .asking q.query st) (sent : st.sent? = some id) (own : r.id = .number id)
      (understood : Client.understand q.query.method q.query.result r = .ok j)
      (cache : (call.step now l).1.client.cache = l.client.cache.set q.key q.type j)
      (told : Event.ofCall now l k call = [.kept k q j, .returned k (.response r)])

variable (now : Nat) (l : Link) (k : Nat)

theorem aside_ofCall {call : ClientCall}
    (uncached : Event.ofCache k call (call.step now l).2 = []) :
    ∀ e ∈ Event.ofCall now l k call, e.IsAside := by
  intro e there
  simp only [Event.ofCall, uncached, List.nil_append] at there
  split at there
  · rcases List.mem_append.mp there with queued | there
    · exact Event.aside_queue _ _ _ e queued
    · rcases List.mem_append.mp there with turned | queued
      · exact Event.aside_ofTurn _ _ e turned
      · exact Event.aside_queue _ _ _ e queued
  · exact Event.aside_queue _ _ _ e there

variable {now l} {q : CachedQuery} {st : AskStage} {c : Client} {a : Answer} {j : Json}

theorem ofCall_served (hit : (l.client.cache.get q.key q.type).1 = some j) :
    Event.ofCall now l k (.lookUp q .fresh) = [.served k q j] := by
  rcases got : l.client.cache.get q.key q.type with ⟨found, cache⟩
  rw [got] at hit
  cases hit
  simp only [Event.ofCall, step, Link.onClient, Client.lookUp, got, phase]
  rw [Event.queue_of_outbound (by rfl)]
  rfl

theorem step_kept (exchanged : l.client.exchange q.query now st = (c, .done a))
    (result : c.outcome q.query a = .ok j) :
    step now l (.lookUp q (.asking st)) =
      ({ l with client := { c with cache := c.cache.set q.key q.type j } }, .done (.answered (.ok j))) := by
  simp only [step, Link.onClient, Client.lookUp, Client.ask, exchanged, Turn.lift, result]

theorem ofCall_kept (exchanged : l.client.exchange q.query now st = (c, .done a))
    (result : c.outcome q.query a = .ok j) :
    Event.ofCall now l k (.lookUp q (.asking st)) = [.kept k q j, .returned k a] := by
  obtain ⟨r, rfl, -⟩ := Client.outcome_ok result
  have asked := Client.exchange_asked q.query now l.client st
  rw [exchanged] at asked
  obtain ⟨id, -, -, outbound⟩ := asked.response
  simp only [Event.ofCall, step_kept exchanged result, phase, exchanged]
  rw [Event.queue_of_outbound outbound, Event.queue_of_outbound (by rfl)]
  rfl

variable (now l)

theorem caching_lookUp_fresh (q : CachedQuery) : Caching now l k (.lookUp q .fresh) := by
  rcases got : l.client.cache.get q.key q.type with ⟨_ | j, cache⟩
  · refine .misses q ?_ (aside_ofCall now l k ?_)
    · simp only [step, Link.onClient, Client.lookUp, got]
    · simp only [step, Link.onClient, Client.lookUp, got]
      rfl
  · have hit : (l.client.cache.get q.key q.type).1 = some j := by rw [got]
    refine .serves q j hit ?_ (ofCall_served k hit)
    simp only [step, Link.onClient, Client.lookUp, got]

theorem caching_lookUp_asking (q : CachedQuery) (st : AskStage) :
    Caching now l k (.lookUp q (.asking st)) := by
  rcases exchanged : l.client.exchange q.query now st with ⟨c, turn⟩
  have asked := Client.exchange_asked q.query now l.client st
  rw [exchanged] at asked
  have cache : c.cache = l.client.cache := asked.cache
  cases turn with
  | wait d =>
    refine .leaves ?_ (aside_ofCall now l k ?_)
    · simp only [step, Link.onClient, Client.lookUp, Client.ask, exchanged, Turn.lift, cache]
    · simp only [step, Link.onClient, Client.lookUp, Client.ask, exchanged]
      rfl
  | go s' =>
    refine .leaves ?_ (aside_ofCall now l k ?_)
    · simp only [step, Link.onClient, Client.lookUp, Client.ask, exchanged, Turn.lift, cache]
    · simp only [step, Link.onClient, Client.lookUp, Client.ask, exchanged]
      rfl
  | done a =>
    cases result : c.outcome q.query a with
    | error e =>
      refine .leaves ?_ (aside_ofCall now l k ?_)
      · simp only [step, Link.onClient, Client.lookUp, Client.ask, exchanged, Turn.lift, result, cache]
      · simp only [step, Link.onClient, Client.lookUp, Client.ask, exchanged, Turn.lift, result]
        rfl
    | ok j =>
      have told := ofCall_kept k exchanged result
      have stepped := step_kept exchanged result
      obtain ⟨r, rfl, understood⟩ := Client.outcome_ok result
      obtain ⟨id, sent, own, -⟩ := asked.response
      refine .keeps q j st r id rfl sent own understood ?_ told
      rw [stepped]
      exact congrArg (fun cache => cache.set q.key q.type j) cache

theorem caching (call : ClientCall) : Caching now l k call := by
  cases call with
  | ask q st => exact .leaves (steps_ask now l q st).cache (aside_ofCall now l k rfl)
  | lookUp q s =>
    cases s with
    | fresh => exact caching_lookUp_fresh now l k q
    | asking st => exact caching_lookUp_asking now l k q st
  | greet s => exact .leaves (steps_greet now l s).cache (aside_ofCall now l k rfl)
  | shutDown s => exact .leaves (steps_shutDown now l s).cache (aside_ofCall now l k rfl)

end ClientCall

end LanguageHost
