import LanguageHost.Proofs.Session.Asking
import Mathlib.Logic.Function.Basic

/-!
Runs of one client. Calls begin at any time and take their steps in any order, between whatever else
happens to the link; the log tells what they did, the latest first.
-/
namespace LanguageHost

/-- What can be told of a run. Calls are known by their tickets. -/
inductive Event where
  | numbered (call : Nat) (id : Int32)
  /-- something was queued for the server, by a call or not -/
  | queued (call : Option Nat) (m : Message)
  | returned (call : Nat) (a : Answer)
  /-- a call put an answer into the cache -/
  | kept (call : Nat) (q : CachedQuery) (j : Json)
  /-- a call took its answer from the cache -/
  | served (call : Nat) (q : CachedQuery) (j : Json)
  | reopened (uri : String)

namespace Event

/-- The call whose query an event is about. -/
def caller? : Event → Option Nat
  | .numbered k _ | .returned k _ => some k
  | _ => none

/-- Events that are not about the course of a query. -/
def IsPlain (e : Event) : Prop := e.caller? = none

/-- What a step has queued. -/
def queue (call : Option Nat) (c c' : Client) : List Event :=
  ((c'.outbound.drop c.outbound.length).filterMap fun
    | .message m => some (.queued call m)
    | .close => none).reverse

def ofTurn (call : Nat) : Turn AskStage Answer → List Event
  | .go (.numbered id) => [.numbered call id]
  | .done a => [.returned call a]
  | _ => []

def ofCache (call : Nat) : ClientCall → Turn ClientCall Outcome → List Event
  | .lookUp q .fresh, .done (.answered (.ok j)) => [.served call q j]
  | .lookUp q (.asking _), .done (.answered (.ok j)) => [.kept call q j]
  | _, _ => []

/-- What is told of a step of a call. -/
def ofCall (now : Nat) (l : Link) (k : Nat) (call : ClientCall) : List Event :=
  let (l', turn) := call.step now l
  ofCache k call turn ++ match call.phase with
    | .asking q s =>
      let (c, answer) := l.client.exchange q now s
      queue (some k) c l'.client ++ (ofTurn k answer ++ queue (some k) l.client c)
    | _ => queue (some k) l.client l'.client

/-- What is told of anything else. -/
def ofAct (l : Link) (a : Link.Act) : List Event :=
  (l.reopened a).toList.map .reopened ++ queue none l.client (l.act a).1.client

theorem plain_queue (call : Option Nat) (c c' : Client) : ∀ e ∈ queue call c c', e.IsPlain := by
  intro e there
  obtain ⟨o, -, added⟩ := List.mem_filterMap.mp (List.mem_reverse.mp there)
  cases o with
  | message m =>
    cases added
    rfl
  | close => cases added

theorem plain_ofCache (k : Nat) (call : ClientCall) (turn : Turn ClientCall Outcome) :
    ∀ e ∈ ofCache k call turn, e.IsPlain := by
  intro e there
  unfold ofCache at there
  split at there
  · cases List.mem_singleton.mp there
    rfl
  · cases List.mem_singleton.mp there
    rfl
  · cases there

theorem plain_ofAct (l : Link) (a : Link.Act) : ∀ e ∈ ofAct l a, e.IsPlain := by
  intro e there
  rcases List.mem_append.mp there with opened | queued
  · obtain ⟨uri, -, rfl⟩ := List.mem_map.mp opened
    trivial
  · exact plain_queue _ _ _ e queued

theorem queue_append (k : Option Nat) (c : Client) (m : Message) :
    queue k c (c.append m) = [.queued k m] := by
  simp [queue, Client.append]

end Event

structure Session where
  now : Nat
  link : Link
  /-- the calls that have begun and not ended -/
  calls : Nat → Option ClientCall
  /-- the ticket of the next call -/
  tickets : Nat
  log : List Event

/-- Calls begin at their first stage. -/
def ClientCall.isFresh : ClientCall → Bool
  | .ask _ .fresh | .lookUp _ .fresh | .greet .fresh | .shutDown (.asking .fresh) => true
  | _ => false

namespace Session

/-- A client whose connection has just been made. -/
def start (now : Nat) (language : String) (config : ClientConfig) (server : Peer)
    (process : Option Invocation) : Session :=
  ⟨now, .connect (.connect language config) server process, fun _ => none, 0, []⟩

inductive Move where
  | begin (call : ClientCall)
  /-- a call takes a step -/
  | turn (k : Nat)
  | act (a : Link.Act)
  /-- time passes -/
  | pass (time : Nat)

def turned (s : Session) (k : Nat) (call : ClientCall) : Session :=
  { s with
    link := (call.step s.now s.link).1
    calls := Function.update s.calls k ((call.step s.now s.link).2.rest? call)
    log := Event.ofCall s.now s.link k call ++ s.log }

/-- A move that cannot be made changes nothing. -/
def next (s : Session) : Move → Session
  | .begin call =>
    if call.isFresh then
      { s with calls := Function.update s.calls s.tickets (some call), tickets := s.tickets + 1 }
    else s
  | .turn k =>
    match s.calls k with
    | none => s
    | some call => s.turned k call
  | .act a => { s with link := (s.link.act a).1, log := Event.ofAct s.link a ++ s.log }
  | .pass time => { s with now := max s.now time }

def run (s : Session) (moves : List Move) : Session := moves.foldl next s

/-- How far a call has come; one that has ended or not begun is behind its query. -/
def phase (s : Session) (k : Nat) : ClientCall.Phase := ClientCall.phase? (s.calls k)

/-- All that a move can do, as far as queries are concerned. -/
inductive Step (s s' : Session) : Prop
  | begins (p : ClientCall.Phase) (first : p = .ahead ∨ ∃ q, p = .asking q .fresh)
      (link : s'.link = s.link) (tickets : s'.tickets = s.tickets + 1)
      (phase : s'.phase = Function.update s.phase s.tickets p) (log : s'.log = s.log)
  | stirs (uri? : Option String) (link : s.link.Stirs uri? s'.link) (tickets : s'.tickets = s.tickets)
      (phase : s'.phase = s.phase) (es : List Event) (plain : ∀ e ∈ es, e.IsPlain)
      (log : s'.log = es ++ s.log)
  /-- a call moves that has no query under way -/
  | shifts (k : Nat) (p : ClientCall.Phase)
      (onward : s.phase k = .ahead ∧ (p = .ahead ∨ p = .behind ∨ ∃ q, p = .asking q .fresh) ∨
        s.phase k = .behind ∧ p = .behind)
      (client : s.link.client.Beside s'.link.client) (tickets : s'.tickets = s.tickets)
      (phase : s'.phase = Function.update s.phase k p) (es : List Event)
      (plain : ∀ e ∈ es, e.IsPlain) (log : s'.log = es ++ s.log)
  /-- the query of a call takes a step -/
  | asks (k : Nat) (q : Query) (st : AskStage) (c : Client) (turn : Turn AskStage Answer)
      (before : s.phase k = .asking q st) (asked : s.link.client.Asked q s.now st c turn)
      (client : c.Beside s'.link.client) (tickets : s'.tickets = s.tickets)
      (phase : s'.phase = Function.update s.phase k (.after q st turn)) (es : List Event)
      (plain : ∀ e ∈ es, e.IsPlain)
      (log : s'.log =
        es ++ (Event.ofTurn k turn ++ (Event.queue (some k) s.link.client c ++ s.log)))

theorem phase_update (s : Session) (k : Nat) (call? : Option ClientCall) :
    (fun j => ClientCall.phase? (Function.update s.calls k call? j)) =
      Function.update s.phase k (ClientCall.phase? call?) := by
  funext j
  by_cases same : j = k
  · subst same
    simp
  · simp [same, phase]

theorem phase_of_isFresh {call : ClientCall} (h : call.isFresh = true) :
    call.phase = .ahead ∨ ∃ q, call.phase = .asking q .fresh := by
  unfold ClientCall.isFresh at h
  split at h
  · exact .inr ⟨_, rfl⟩
  · exact .inl rfl
  · exact .inl rfl
  · exact .inr ⟨_, rfl⟩
  · cases h

theorem step_turned (s : Session) {k : Nat} {call : ClientCall} (there : s.calls k = some call) :
    s.Step (s.turned k call) := by
  have before : s.phase k = call.phase := by rw [phase, there]; rfl
  have after : (s.turned k call).phase = Function.update s.phase k
      (ClientCall.phase? ((call.step s.now s.link).2.rest? call)) := s.phase_update k _
  have told : (s.turned k call).log = Event.ofCall s.now s.link k call ++ s.log := rfl
  have moved := ClientCall.steps s.now s.link call
  have plain : (∀ q st, call.phase ≠ .asking q st) → ∀ e ∈ Event.ofCall s.now s.link k call, e.IsPlain := by
    intro idle e there
    rcases List.mem_append.mp there with cached | queued
    · exact Event.plain_ofCache _ _ _ e cached
    · split at queued
      · next q st asking => exact absurd asking (idle q st)
      · exact Event.plain_queue _ _ _ e queued
  unfold ClientCall.Steps at moved
  generalize at_ : call.phase = p at moved before plain
  generalize to_ : ClientCall.phase? ((call.step s.now s.link).2.rest? call) = p' at moved after
  generalize client_ : (call.step s.now s.link).1.client = c' at moved
  cases moved with
  | waits beside =>
    subst client_
    exact .shifts k .ahead (.inl ⟨before, .inl rfl⟩) beside rfl after _ (plain nofun) told
  | spared beside =>
    subst client_
    exact .shifts k .behind (.inl ⟨before, .inr (.inl rfl)⟩) beside rfl after _ (plain nofun) told
  | starts q beside =>
    subst client_
    exact .shifts k (.asking q .fresh) (.inl ⟨before, .inr (.inr ⟨q, rfl⟩)⟩) beside rfl after _ (plain nofun)
      told
  | ends beside =>
    subst client_
    exact .shifts k .behind (.inr ⟨before, rfl⟩) beside rfl after _ (plain nofun) told
  | asks q st beside =>
    subst client_
    refine .asks k q st _ _ before (Client.exchange_asked q s.now s.link.client st) beside rfl after
      (Event.ofCache k call (call.step s.now s.link).2 ++
        Event.queue (some k) (s.link.client.exchange q s.now st).1 (call.step s.now s.link).1.client)
      ?_ ?_
    · intro e there
      rcases List.mem_append.mp there with cached | queued
      · exact Event.plain_ofCache _ _ _ e cached
      · exact Event.plain_queue _ _ _ e queued
    · simp only [told, Event.ofCall, at_, List.append_assoc]

theorem step_still {s s' : Session} (link : s'.link = s.link) (tickets : s'.tickets = s.tickets)
    (phase : s'.phase = s.phase) (log : s'.log = s.log) : s.Step s' :=
  .stirs none (link ▸ .of_aside (.refl _) id) tickets phase [] nofun log

theorem step_next (s : Session) (move : Move) : s.Step (s.next move) := by
  cases move with
  | begin call =>
    simp only [next]
    split
    · next fresh =>
      exact .begins call.phase (phase_of_isFresh fresh) rfl rfl (s.phase_update _ (some call)) rfl
    · exact step_still rfl rfl rfl rfl
  | turn k =>
    simp only [next]
    split
    · exact step_still rfl rfl rfl rfl
    · next call there => exact s.step_turned there
  | act a => exact .stirs _ (s.link.stirs_act a) rfl rfl _ (Event.plain_ofAct s.link a) rfl
  | pass time => exact step_still rfl rfl rfl rfl

/-- What every move keeps, given that it is known of the state before, holds after a run. -/
theorem run_keeps {P : Session → Prop} (step : ∀ {s s'}, s.Step s' → P s → P s') {s : Session} (h : P s)
    (moves : List Move) : P (s.run moves) := by
  induction moves generalizing s with
  | nil => exact h
  | cons move moves ih => exact ih (step (s.step_next move) h)

end Session

end LanguageHost
