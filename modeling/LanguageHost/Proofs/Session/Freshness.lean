import LanguageHost.Proofs.Session.Caching
import LanguageHost.Proofs.Session.Responses

/-!
Where an answer from the cache comes from. An entry is put in by the call that asked for it, and opening
or closing its document takes it away; so what the cache serves was put in after the document was last
opened or closed. Its request need not be that recent: a query that is under way meanwhile puts its answer
in all the same.
-/
namespace LanguageHost

/-- How an entry came into the cache, and what the log tells since: a query of that key returned from the
response to the request that it had queued, its answer was put in, and nothing opened or closed the
document from then on. -/
structure Event.Entered (log : List Event) (key : CacheKey) (e : CacheEntry) (k : Nat)
    (q : CachedQuery) (j : Json) (r : Response) (id : Int32) (newer prior : List Event) : Prop where
  history : log = newer ++ .kept k q j :: .returned k (.response r) :: prior
  ofKey : q.key = key
  entry : e = ⟨q.type.name, j.canonical⟩
  understood : Client.understand q.query.method q.query.result r = .ok j
  own : r.id = .number id
  queued : .queued (some k) (q.query.request id) ∈ prior
  unopened : .reopened key.document ∉ newer

namespace Event

/-- An entry has been put into the cache since its document was last opened or closed. -/
def Fresh (log : List Event) (key : CacheKey) (e : CacheEntry) : Prop :=
  ∃ k q j r id newer prior, Entered log key e k q j r id newer prior

theorem Fresh.append {log es : List Event} {key : CacheKey} {e : CacheEntry} (h : Fresh log key e)
    (unopened : .reopened key.document ∉ es) : Fresh (es ++ log) key e := by
  obtain ⟨k, q, j, r, id, newer, prior, entered⟩ := h
  refine ⟨k, q, j, r, id, es ++ newer, prior, ?_, entered.ofKey, entered.entry, entered.understood,
    entered.own, entered.queued, ?_⟩
  · rw [entered.history, List.append_assoc]
  · intro there
    rcases List.mem_append.mp there with new | old
    · exact unopened new
    · exact entered.unopened old

/-- What is served is the reading of an entry that was put in since the document was last opened or
closed. -/
def Served : Event → List Event → Prop
  | .served _ q j, older => ∃ e, Fresh older q.key e ∧ e.type = q.type.name ∧
      q.type.shape.read? e.value = some j
  | _, _ => True

theorem served_other {e : Event} (other : ∀ k q j, e ≠ .served k q j) (older : List Event) :
    e.Served older := by
  unfold Served
  split
  · exact absurd rfl (other _ _ _)
  · trivial

theorem IsAside.served {e : Event} (h : e.IsAside) (older : List Event) : e.Served older := by
  refine served_other (fun k q j same => ?_) older
  subst same
  cases h

end Event

namespace Session

/-- What is in the cache and what was served from it was put in since its document was last opened or
closed. -/
structure Fresh (s : Session) : Prop where
  entries : ∀ entry ∈ s.link.client.cache.entries, Event.Fresh s.log entry.1 entry.2
  served : Event.Always Event.Served s.log

namespace Fresh

variable {s s' : Session}

theorem aside (h : s.Fresh) {es : List Event} (log : s'.log = es ++ s.log)
    (entries : ∀ entry ∈ s'.link.client.cache.entries, entry ∈ s.link.client.cache.entries)
    (aside : ∀ e ∈ es, e.IsAside) : s'.Fresh := by
  constructor
  · intro entry there
    rw [log]
    exact (h.entries entry (entries entry there)).append fun opened => aside _ opened
  · rw [log]
    exact h.served.append fun e there => (aside e there).served

theorem turned (h : s.Fresh) (chronicle : Chronicle s.tickets s.phase s.log) {k : Nat}
    {call : ClientCall} (there : s.calls k = some call) : (s.turned k call).Fresh := by
  have log : (s.turned k call).log = Event.ofCall s.now s.link k call ++ s.log := rfl
  have link : (s.turned k call).link = (call.step s.now s.link).1 := rfl
  cases call.caching s.now s.link k with
  | leaves cache aside =>
    refine h.aside log (fun entry there => ?_) aside
    rwa [link, cache] at there
  | misses q cache aside =>
    refine h.aside log (fun entry there => ?_) aside
    rw [link, cache] at there
    exact ResponseCache.mem_of_mem_get there
  | serves q j hit cache told =>
    rw [told] at log
    constructor
    · intro entry there
      rw [link, cache] at there
      rw [log]
      exact (h.entries entry (ResponseCache.mem_of_mem_get there)).append (by simp)
    · rw [log]
      obtain ⟨e, present, type, reading⟩ := ResponseCache.get_some hit
      exact h.served.cons ⟨e, h.entries _ present, type, reading⟩
  | keeps q j st r id phase sent own understood cache told =>
    have queued : .queued (some k) (q.query.request id) ∈ s.log := by
      have known := chronicle.told k
      rw [show s.phase k = .asking q.query st by rw [Session.phase, there]; exact phase] at known
      exact known.2.2 id sent
    rw [told] at log
    constructor
    · intro entry there
      rw [link, cache] at there
      rw [log]
      rcases ResponseCache.mem_of_mem_set there with rfl | old
      · exact ⟨k, q, j, r, id, [], s.log, rfl, rfl, rfl, understood, own, queued, by simp⟩
      · exact (h.entries entry old).append (by simp)
    · rw [log]
      refine h.served.append fun e there => Event.served_other fun _ _ _ same => ?_
      simp [same] at there

theorem acted (h : s.Fresh) (a : Link.Act) : (s.next (.act a)).Fresh := by
  have log : (s.next (.act a)).log = Event.ofAct s.link a ++ s.log := rfl
  have link : (s.next (.act a)).link = (s.link.act a).1 := rfl
  have queued := Event.aside_queue none s.link.client (s.link.act a).1.client
  obtain ⟨c, stirred, aside⟩ := (s.link.stirs_act a).client
  have unserved : ∀ e ∈ Event.ofAct s.link a, ∀ k q j, e ≠ .served k q j := by
    rintro e there k q j rfl
    rcases List.mem_append.mp there with opened | told
    · simp at opened
    · exact queued _ told
  constructor
  · intro entry there
    rw [link, aside.cache] at there
    rw [log]
    have opened {uri : String} (told : .reopened uri ∈ Event.ofAct s.link a) :
        s.link.reopened a = some uri := by
      rcases List.mem_append.mp told with opened | told
      · simpa using opened
      · exact absurd (queued _ told) id
    generalize s.link.reopened a = uri? at stirred opened
    cases stirred with
    | still | releases => exact (h.entries entry there).append fun told => by cases opened told
    | accepts r _ =>
      have there : entry ∈ s.link.client.cache.entries := by
        unfold Client.accept at there
        split at there
        · exact there
        · exact there
      exact (h.entries entry there).append fun told => by cases opened told
    | reopens uri =>
      obtain ⟨present, other⟩ := ResponseCache.mem_invalidateDocument.mp there
      exact (h.entries entry present).append fun told => other (Option.some.inj (opened told)).symm
  · rw [log]
    exact h.served.append fun e there => Event.served_other (unserved e there)

theorem next (h : s.Fresh) (chronicle : Chronicle s.tickets s.phase s.log) (move : Move) :
    (s.next move).Fresh := by
  cases move with
  | begin call =>
    simp only [Session.next]
    split
    · exact ⟨h.entries, h.served⟩
    · exact h
  | turn k =>
    simp only [Session.next]
    split
    · exact h
    · next call there => exact h.turned chronicle there
  | act a => exact h.acted a
  | pass time => exact ⟨h.entries, h.served⟩

end Fresh

theorem Reached.fresh {s : Session} (h : s.Reached) : s.Fresh := by
  obtain ⟨now, language, config, server, process, moves, rfl⟩ := h
  have runs (s : Session) (fresh : s.Fresh) (chronicle : Chronicle s.tickets s.phase s.log) :
      (s.run moves).Fresh := by
    induction moves generalizing s with
    | nil => exact fresh
    | cons move moves ih => exact ih _ (fresh.next chronicle move) (chronicle.step (s.step_next move))
  exact runs _ ⟨nofun, Event.always_nil⟩ Chronicle.start

/-- A message of a call has been queued, and the call has not returned. -/
def UnderWay (log : List Event) (k : Nat) (m : Message) : Prop :=
  .queued (some k) m ∈ log ∧ ∀ a, .returned k a ∉ log

/-- What is served from the cache is the answer of a query with the same key, put in since its document was
last opened or closed. The request of that query was sent since then too, unless it was under way when the
document was opened or closed. -/
theorem served_since_reopening {s : Session} (reached : s.Reached) {k : Nat} {q : CachedQuery} {j : Json}
    {older : List Event} (ends : (.served k q j :: older) <:+ s.log) :
    ∃ i q' j' r id newer prior,
      older = newer ++ .kept i q' j' :: .returned i (.response r) :: prior ∧
      .reopened q.key.document ∉ newer ∧ q'.key = q.key ∧ q'.type.name = q.type.name ∧
      Client.understand q'.query.method q'.query.result r = .ok j' ∧
      q.type.shape.read? j'.canonical = some j ∧ r.id = .number id ∧
      .queued (some i) (q'.query.request id) ∈ prior ∧
      ∀ since before, prior = since ++ .reopened q.key.document :: before →
        .queued (some i) (q'.query.request id) ∈ since ∨
          UnderWay before i (q'.query.request id) := by
  obtain ⟨e, ⟨i, q', j', r, id, newer, prior, entered⟩, type, reading⟩ := reached.fresh.served _ _ ends
  obtain ⟨history, ofKey, rfl, understood, own, queued, unopened⟩ := entered
  have answered : (.returned i (.response r) :: prior) <:+ s.log := by
    have kept := (List.suffix_cons (.served k q j) older).trans ends
    rw [history] at kept
    exact ((List.suffix_cons (.kept i q' j') _).trans (List.suffix_append newer _)).trans kept
  have once := (reached.sound.chronicle.founded _ _ answered).1
  refine ⟨i, q', j', r, id, newer, prior, history, unopened, ofKey, type, understood, reading, own, queued,
    fun since before split => ?_⟩
  rw [split] at queued once
  rcases List.mem_append.mp queued with since | earlier
  · exact .inl since
  · rcases List.mem_cons.mp earlier with same | earlier
    · cases same
    · refine .inr ⟨earlier, fun a returned => once a ?_⟩
      exact List.mem_append_right _ (List.mem_cons_of_mem _ returned)

/-! A document that is closed and opened again while a query for it is under way. -/

/-- A call puts its answer in, and the next call for it is served. -/
theorem log_kept_served {s : Session} {q : CachedQuery} {st : AskStage} {c : Client} {a : Answer} {i k : Nat}
    {j j' : Json} (call : s.calls i = some (.lookUp q (.asking st))) (tickets : s.tickets = k)
    (exchanged : s.link.client.exchange q.query s.now st = (c, .done a))
    (result : c.outcome q.query a = .ok j) (reading : q.type.shape.read? j.canonical = some j') :
    (s.run [.turn i, .begin (.lookUp q .fresh), .turn k]).log =
      .served k q j' :: .kept i q j :: .returned i a :: s.log := by
  have stepped := ClientCall.step_kept exchanged result
  have told := ClientCall.ofCall_kept i exchanged result
  have hit := (c.cache.get_set q.key q.type j).trans reading
  simp only [run, List.foldl_cons, List.foldl_nil, next, call, turned, stepped, told, tickets,
    ClientCall.isFresh, if_true, Function.update_self]
  rw [ClientCall.ofCall_served k hit]
  rfl

theorem exchange_arrived {c : Client} {q : Query} {r : Response} {id : Int32} {now deadline : Nat}
    (arrived : c.arrived = [r]) (own : r.id = .number id) :
    c.exchange q now (.waiting id deadline) = ({ c with arrived := [] }, .done (.response r)) := by
  simp [Client.exchange, Client.take?, arrived, own]

theorem Reached.run {s : Session} (h : s.Reached) (moves : List Move) : (s.run moves).Reached := by
  obtain ⟨now, language, config, server, process, before, rfl⟩ := h
  exact ⟨now, language, config, server, process, before ++ moves, (List.foldl_append).symm⟩

def reopenedDocument : Document := ⟨"file:///a", "fake", 1, ""⟩

/-- The symbols of a document are asked for, and the document is closed before the call goes on. -/
def closedMeanwhile : Session :=
  (start 0 "fake" ⟨⟨"/"⟩, [], none, 9⟩ (.ofScript .empty) none).run <|
    [.act (.openDocument reopenedDocument), .begin (.lookUp (.symbols reopenedDocument.uri) .fresh)] ++
    List.replicate 5 (.turn 0) ++
    [.act (.emit (Peer.wire (.number 1) [("result", .null)])), .act (.hand .reader), .act (.hand .reader),
      .act (.closeDocument reopenedDocument.uri)]

/-- Then it is opened again. -/
def reopenedMeanwhile : Session := closedMeanwhile.run [.act (.openDocument reopenedDocument)]

/-- A response with no result and no error is told by its number. -/
theorem arrived_null {rs : List Response} {id : RequestId}
    (read : rs.map (fun r => (r.id, r.result.isNone, r.error.isNone)) = [(id, true, true)]) :
    rs = [⟨id, none, none⟩] := by
  obtain ⟨⟨id', result, error⟩, rest, split, same, none⟩ := List.map_eq_cons_iff.mp read
  cases List.map_eq_nil_iff.mp none
  obtain ⟨rfl, noResult, noError⟩ : id' = id ∧ result.isNone = true ∧ error.isNone = true := by
    simpa using same
  rw [split, Option.isNone_iff_eq_none.mp noResult, Option.isNone_iff_eq_none.mp noError]

theorem reopenedMeanwhile_arrived : reopenedMeanwhile.link.client.arrived = [⟨.number 1, none, none⟩] :=
  arrived_null (by decide +kernel)

theorem reopenedMeanwhile_log : ∃ before, reopenedMeanwhile.log = .reopened reopenedDocument.uri :: before := by
  have opened : closedMeanwhile.link.reopened (.openDocument reopenedDocument) = some reopenedDocument.uri := by
    decide +kernel
  exact ⟨_, by simp [reopenedMeanwhile, run, next, Event.ofAct, opened]; rfl⟩

theorem unkept_reopenedMeanwhile (k : Nat) (q : CachedQuery) (j : Json) :
    .kept k q j ∉ reopenedMeanwhile.log := by
  intro there
  have none : (reopenedMeanwhile.log.filterMap fun
      | .kept _ _ _ => some ()
      | _ => none) = [] := by decide +kernel
  exact absurd (List.filterMap_eq_nil_iff.mp none _ there) (by simp)

/-- When the call goes on, it puts an answer in that was asked for before the document was opened again, and
the next call is served with it. -/
theorem reopenedMeanwhile_serves_stale :
    let q := CachedQuery.symbols reopenedDocument.uri
    let s := reopenedMeanwhile.run [.turn 0, .begin (.lookUp q .fresh), .turn 1]
    ∃ r before, s.log = .served 1 q .null :: .kept 0 q .null :: .returned 0 (.response r) ::
      .reopened q.key.document :: before ∧ UnderWay before 0 (q.query.request 1) := by
  intro q s
  have calls : reopenedMeanwhile.calls 0 = some (.lookUp q (.asking (.waiting 1 9))) := rfl
  have reading : q.type.shape.read? .null = some .null := by
    simp [q, CachedQuery.symbols, CachedQuery.make, ValueType.symbols, Shape.read?, Shape.readFrom]
  have understood : Client.understand q.query.method q.query.result ⟨.number 1, none, none⟩ = .ok .null := by
    simp only [Client.understand, Option.getD_none]
    rw [show q.query.result.read? .null = some .null from reading]
  have log : s.log = _ := log_kept_served calls rfl
    (exchange_arrived reopenedMeanwhile_arrived rfl) understood reading
  obtain ⟨before, opened⟩ := reopenedMeanwhile_log
  have reached : s.Reached := Reached.run (Reached.run ⟨_, _, _, _, _, _, rfl⟩ _) _
  have ends : (.served 1 q .null :: .kept 0 q .null :: .returned 0 (.response ⟨.number 1, none, none⟩) ::
      reopenedMeanwhile.log) <:+ s.log := log ▸ List.suffix_refl s.log
  obtain ⟨i, q', j', r, id, newer, prior, split, -, -, -, -, -, own, -, course⟩ :=
    served_since_reopening reached ends
  cases newer with
  | nil =>
    injection split with kept rest
    injection rest with returned rest
    cases kept
    cases returned
    cases own
    refine ⟨⟨.number 1, none, none⟩, before, by rw [log, opened]; rfl, ?_⟩
    rcases course [] before (rest.symm.trans opened) with since | underWay
    · cases since
    · exact underWay
  | cons e newer =>
    -- nothing was kept before
    injection split with _ split
    have there : .kept i q' j' ∈ .returned 0 (.response ⟨.number 1, none, none⟩) :: reopenedMeanwhile.log := by
      rw [split]
      exact List.mem_append_right _ List.mem_cons_self
    rcases List.mem_cons.mp there with same | earlier
    · cases same
    · exact absurd earlier (unkept_reopenedMeanwhile i q' j')

end Session

end LanguageHost
