import LanguageHost.Proofs.Fleet.Links
import LanguageHost.Proofs.Json.Reading
import LanguageHost.Proofs.Session.Wire

/-!
The first request of a session, as it is queued. It tells the server the options that the client's
configuration has, and has no such member when that has none. Only a greeting queues one, and a client that has
an answer to it has queued it before.
-/
namespace LanguageHost

/-- A query that tells the server these options, if it is a first request. -/
def Query.Conveys (options : Option Json) (q : Query) : Prop :=
  q.method = "initialize" → q.params.get? "initializationOptions" = options

/-- The same of what is queued. -/
def Outbound.Conveys (options : Option Json) (o : Outbound) : Prop :=
  ∀ r : Request, o = .message (.request r) → r.method = "initialize" →
    r.params.get? "initializationOptions" = options

variable {options : Option Json}

theorem Outbound.conveys_notification (n : Notification) :
    Outbound.Conveys options (.message (.notification n)) := nofun

theorem Query.Conveys.allowed {q : Query} (h : q.Conveys options) : q.Allowed (Outbound.Conveys options) := by
  constructor
  · rintro id r ⟨⟩
    exact h
  · exact fun id => Outbound.conveys_notification _

/-- The end of a session tells no options. -/
theorem Query.conveys_shutdown : Query.shutdown.Conveys options :=
  fun first => absurd (show "shutdown" = "initialize" from first) (by decide)

namespace Client

/-- The first request tells the options of the configuration. -/
theorem greetingQuery_conveys {config : ClientConfig} {q : Query} (h : greetingQuery config = .ok q) :
    q.method = "initialize" ∧ q.Conveys config.initOptions := by
  simp only [greetingQuery, bind, Except.bind] at h
  split at h
  · cases h
  · split at h
    · cases h
    · cases h
      refine ⟨rfl, fun _ => ?_⟩
      cases config.initOptions <;> simp [Json.get?, List.lookup_cons]

/-- A first request is queued. -/
def Introduces (c : Client) : Prop := ∃ r : Request, .message (.request r) ∈ c.outbound ∧ r.method = "initialize"

end Client

/-- What a greeting asks with is a first request, with these options. -/
def GreetStage.Conveys (options : Option Json) : GreetStage → Prop
  | .fresh => True
  | .asking q _ => q.method = "initialize" ∧ q.Conveys options

/-- The first request has been queued. -/
def GreetStage.HasSent : GreetStage → Prop
  | .fresh => False
  | .asking _ s => s.sent?.isSome = true

namespace Client

variable {q : Query} {now : Nat} {c c' : Client}

/-- What a client knows of greetings: the answer that one has had, and whether one is under way. -/
def welcome (c : Client) : Option Json × Bool := (c.greeting, c.isGreeting)

theorem Asked.welcome {s : AskStage} {turn : Turn AskStage Answer} (h : c.Asked q now s c' turn) :
    c'.welcome = c.welcome := by
  cases h with
  | _ => rfl

theorem Asked.queued {s s' : AskStage} (h : c.Asked q now s c' (.go s')) (sent : s'.sent?.isSome = true) :
    s.sent?.isSome = true ∨ ∃ id, .message (q.request id) ∈ c'.outbound := by
  cases h with
  | sent id isOpen => exact .inr ⟨id, List.mem_append_right _ (List.mem_singleton_self _)⟩
  | expired | withdrawn => exact .inl rfl
  | admitted | numbered | registered | refused => cases sent

/-- Only a query that was queued is answered. -/
theorem Asked.sent_of_response {s : AskStage} {r : Response} (h : c.Asked q now s c' (.done (.response r))) :
    s.sent?.isSome = true := by
  cases h with
  | answered => rfl

theorem conveys_greet (now : Nat) {s s' : GreetStage} (h : s.Conveys c.config.initOptions)
    (rest : (c.greet now s).2.rest? s = some s') : s'.Conveys c.config.initOptions := by
  have greeted := c.greet_greeted now s
  generalize c.greet now s = went at greeted rest
  obtain ⟨c', turn⟩ := went
  cases greeted with
  | known | unmade | fails | untold | succeeds => cases rest
  | starts q _ _ made =>
    cases rest
    exact greetingQuery_conveys made
  | waits | stays | goes =>
    cases rest
    exact h

/-- What a step of a greeting shows of the first request: whoever has an answer, or waits for one, has
queued it. -/
structure Shows (c : Client) (s : GreetStage) (c' : Client) (turn : Turn GreetStage (Except Error Json)) :
    Prop where
  greeting : c'.greeting.isSome = true → c.greeting.isSome = true ∨ s.HasSent
  sent : ∀ s', turn.rest? s = some s' → s'.HasSent → s.HasSent ∨ c'.Introduces
  answered : ∀ j, turn = .done (.ok j) → c.greeting.isSome = true ∨ s.HasSent

theorem shows_greet {s : GreetStage} (now : Nat) (c : Client) (h : s.Conveys options) :
    c.Shows s (c.greet now s).1 (c.greet now s).2 := by
  have greeted := c.greet_greeted now s
  generalize c.greet now s = went at greeted ⊢
  obtain ⟨c', turn⟩ := went
  have before {q : Query} {s : AskStage} {c' : Client} {turn : Turn AskStage Answer}
      (asked : c.Asked q now s c' turn) (there : c'.greeting.isSome = true) : c.greeting.isSome = true := by
    have kept : c'.greeting = c.greeting := congrArg Prod.fst asked.welcome
    rwa [← kept]
  cases greeted with
  | known j there =>
    refine ⟨.inl, ?_, fun _ _ => .inl (there ▸ rfl)⟩
    rintro _ ⟨⟩
  | waits | starts =>
    refine ⟨.inl, ?_, ?_⟩
    · rintro _ ⟨⟩ ⟨⟩
    · rintro _ ⟨⟩
  | unmade =>
    refine ⟨.inl, ?_, ?_⟩
    · rintro _ ⟨⟩
    · rintro _ ⟨⟩
  | stays asked =>
    refine ⟨fun there => .inl (before asked there), ?_, ?_⟩
    · rintro _ ⟨⟩ sent
      exact .inl sent
    · rintro _ ⟨⟩
  | goes asked =>
    refine ⟨fun there => .inl (before asked there), ?_, ?_⟩
    · rintro _ ⟨⟩ sent
      rcases asked.queued sent with already | ⟨id, queued⟩
      · exact .inl already
      · exact .inr ⟨_, queued, h.1⟩
    · rintro _ ⟨⟩
  | fails asked | untold asked =>
    refine ⟨fun there => .inl (before asked there), ?_, ?_⟩
    · rintro _ ⟨⟩
    · rintro _ ⟨⟩
  | @succeeds q s c₁ a j asked understood =>
    have sent : s.sent?.isSome = true := by
      cases a with
      | response r => exact asked.sent_of_response
      | gone | late => cases understood
    refine ⟨fun _ => .inr sent, ?_, fun _ _ => .inr sent⟩
    rintro _ ⟨⟩

theorem welcome_enqueue {o : Outbound} (h : c.enqueue o = .ok c') : c'.welcome = c.welcome := by
  obtain ⟨-, rfl⟩ := enqueue_ok h
  rfl

theorem welcome_sayExit (c : Client) : c.sayExit.welcome = c.welcome := by
  unfold sayExit
  split
  · next told => exact welcome_enqueue told
  · rfl

theorem welcome_ask (q : Query) (now : Nat) (c : Client) (s : AskStage) :
    (c.ask q now s).1.welcome = c.welcome := (exchange_asked q now c s).welcome

theorem welcome_lookUp (q : CachedQuery) (now : Nat) (c : Client) (s : LookStage) :
    (c.lookUp q now s).1.welcome = c.welcome := by
  cases s with
  | fresh =>
    simp only [lookUp]
    split <;> rfl
  | asking s =>
    have asked := welcome_ask q.query now c s
    simp only [lookUp]
    split
    all_goals
      next stepped =>
      rw [stepped] at asked
      exact asked

end Client

theorem Listener.welcome_dispatch (settings : Option Json) (c : Client) (m : Message) :
    (dispatch settings c m).1.welcome = c.welcome := by
  have reacted : (react settings c m).client.welcome = c.welcome := by
    cases m with
    | request r =>
      simp only [react, onRequest]
      split
      · rfl
      · rfl
      · next method _ _ => cases method <;> rfl
    | notification n =>
      simp only [react, onNotification]
      split <;> rfl
    | response r => rfl
  unfold dispatch
  generalize react settings c m = r at reacted ⊢
  obtain ⟨c', reports, response⟩ := r
  cases response with
  | none => exact reacted
  | some response =>
    dsimp only
    split
    · next told => exact (Client.welcome_enqueue told).trans reacted
    · exact reacted

namespace Link

variable {l l' : Link}

theorem welcome_read (h : l.Reads l') : l'.client.welcome = l.client.welcome := by
  cases h with
  | ends | takes => rfl
  | routes m d =>
    obtain ⟨r, -, accepted⟩ | ⟨-, ⟨-, left⟩ | ⟨-, entered⟩⟩ := route_cases { l with decoder := d } m
    · rw [accepted]
      unfold Client.accept
      split <;> rfl
    · rw [left]
    · rw [entered]

theorem welcome_step {hand : Hand} {reports : List Report} (h : l.step hand = some (l', reports)) :
    l'.client.welcome = l.client.welcome := by
  cases step_cases h with
  | writes _ moved =>
    cases moved with
    | stops | sends => rfl
  | serves _ moved =>
    cases moved with
    | takes | finishes => rfl
  | reads _ moved => exact welcome_read moved
  | listens moved =>
    cases moved with
    | hears settings m rest => exact Listener.welcome_dispatch settings l.client m
    | ends => rfl

theorem welcome_settled {r : Except Error Client} (h : ∀ c, r = .ok c → c.welcome = l.client.welcome) :
    (l.settled r).client.welcome = l.client.welcome := by
  cases r with
  | ok c => exact h c rfl
  | error e => rfl

/-- Only a greeting changes what is known of greetings. -/
theorem welcome_act (l : Link) (a : Act) : (l.act a).1.client.welcome = l.client.welcome := by
  cases a with
  | hand h =>
    simp only [act]
    cases moved : l.step h with
    | none => rfl
    | some moved' => exact welcome_step moved
  | emit bs =>
    simp only [act, emit]
    split <;> rfl
  | serverEnds => rfl
  | openDocument d =>
    refine welcome_settled fun c made => ?_
    obtain ⟨⟨change, c'⟩, opened, rfl⟩ := ok_of_map made
    unfold Client.openDocument at opened
    split at opened
    · cases opened
      rfl
    · simp only [bind, Except.bind] at opened
      split at opened
      · cases opened
      · next told =>
        have kept := Client.welcome_enqueue told
        cases opened
        exact kept
  | closeDocument uri =>
    refine welcome_settled fun c made => ?_
    obtain ⟨⟨change, c'⟩, closed, rfl⟩ := ok_of_map made
    unfold Client.closeDocument at closed
    split at closed
    · simp only [bind, Except.bind] at closed
      split at closed
      · cases closed
      · next told =>
        have kept := Client.welcome_enqueue told
        cases closed
        exact kept
    · cases closed
      rfl
  | notify method params => exact welcome_settled fun c told => Client.welcome_enqueue told
  | respond r => exact welcome_settled fun c told => Client.welcome_enqueue told
  | startListening settings =>
    simp only [act, startListening]
    split <;> rfl
  | stopListening =>
    simp only [act, stopListening]
    split <;> rfl
  | terminate =>
    simp only [act, terminate]
    split <;> rfl

theorem welcome_shutDown (now : Nat) (l : Link) (s : EndStage) :
    (l.shutDown now s).1.client.welcome = l.client.welcome := by
  cases s with
  | asking s =>
    have asked := Client.welcome_ask .shutdown now l.client s
    simp only [shutDown]
    split
    · next stepped =>
      rw [stepped] at asked
      exact (Client.welcome_sayExit _).trans asked
    all_goals
      next stepped =>
      rw [stepped] at asked
      exact asked
  | closing r =>
    simp only [shutDown]
    split
    · next closing => exact Client.welcome_enqueue closing
    · rfl
  | flushing r deadline =>
    simp only [shutDown]
    split <;> rfl
  | draining r =>
    simp only [shutDown]
    split
    · split <;> rfl
    · rfl
  | reaping r deadline =>
    simp only [shutDown]
    split
    · rfl
    · split <;> rfl

/-- Whatever first request is queued tells the options of the client's own configuration. -/
def Conveys (l : Link) : Prop := ∀ o ∈ l.client.outbound, o.Conveys l.client.config.initOptions

theorem Conveys.takes (h : l.Conveys) (continues : l.Continues l')
    (takes : l.client.Takes (Outbound.Conveys l.client.config.initOptions) l'.client) : l'.Conveys := by
  obtain ⟨-, added, grown, fine, -⟩ := takes
  intro o queued
  rw [continues.client.config]
  rw [grown] at queued
  exact (List.mem_append.mp queued).elim (h o) (fine o)

theorem Conveys.passes (h : l.Conveys) (continues : l.Continues l')
    (passes : l.Passes (Outbound.Conveys l.client.config.initOptions) l') : l'.Conveys := by
  cases passes with
  | accepts takes => exact h.takes continues takes
  | writes m before after front =>
    intro o queued
    rw [continues.client.config]
    refine h o ?_
    rw [front]
    exact List.mem_cons_of_mem _ queued
  | shuts shut forgotten =>
    intro o queued
    rw [forgotten] at queued
    cases queued

/-- What a step does to a link: the first requests that it queues convey the options, and an answer to one is
there only if it was before, or if one had been queued. -/
structure Advances (sent : Prop) (l l' : Link) : Prop where
  continues : l.Continues l'
  conveys : l.Conveys → l'.Conveys
  greeting : l'.client.greeting.isSome = true → l.client.greeting.isSome = true ∨ sent

namespace Advances

variable {sent : Prop}

theorem refl (l : Link) : l.Advances sent l := ⟨.refl l, id, .inl⟩

/-- A step that is no greeting's. -/
theorem of_welcome (continues : l.Continues l') (conveys : l.Conveys → l'.Conveys)
    (same : l'.client.welcome = l.client.welcome) : l.Advances sent l' := by
  refine ⟨continues, conveys, fun there => .inl ?_⟩
  have kept : l'.client.greeting = l.client.greeting := congrArg Prod.fst same
  rwa [← kept]

theorem act (l : Link) (a : Act) : l.Advances sent (l.act a).1 := by
  refine .of_welcome (l.stirs_act a).continues (fun h => ?_) (l.welcome_act a)
  refine h.passes (l.stirs_act a).continues (l.passes_act a ?_ (fun params => ⟨?_, ?_⟩) fun _ _ _ => ?_)
  · rintro o ⟨r, rfl⟩
    exact nofun
  all_goals exact Outbound.conveys_notification _

theorem shutDown (now : Nat) (l : Link) (s : EndStage) : l.Advances sent (l.shutDown now s).1 := by
  refine .of_welcome (continues_shutDown now l s) (fun h => ?_) (welcome_shutDown now l s)
  refine h.takes (continues_shutDown now l s) (Client.Queues.toTakes ?_)
  by_cases said : l.Acknowledged now s
  · refine (queues_acknowledged said).mono ?_
    rintro o rfl
    exact Outbound.conveys_notification _
  · exact queues_shutDown Query.conveys_shutdown.allowed nofun said

theorem stop (now : Nat) (l : Link) (s : StopStage) : l.Advances sent (l.stop now s).1 := by
  cases s with
  | silencing => exact act l .stopListening
  | ending s => exact shutDown now l s

theorem greet (now : Nat) (l : Link) {s : GreetStage} (told : s.Conveys l.client.config.initOptions) :
    l.Advances s.HasSent (l.onClient fun c => c.greet now s).1 := by
  refine ⟨continues_greet now l s, fun h => ?_, (Client.shows_greet now l.client told).greeting⟩
  refine h.takes (continues_greet now l s) (Client.Queues.toTakes ?_)
  refine Client.queues_greet (fun q st same => ?_) (Outbound.conveys_notification _) now l.client
  subst same
  exact told.2.allowed

end Advances

end Link

/-! Calls. -/

namespace ClientCall

/-- The stage of a greeting. -/
def greetStage? : ClientCall → Option GreetStage
  | .greet s => some s
  | _ => none

/-- Only greetings make first requests. -/
def isProper : ClientCall → Bool
  | .ask q _ => q.method != "initialize"
  | .lookUp q _ => q.query.method != "initialize"
  | _ => true

variable {now : Nat} {l : Link} {call call' : ClientCall}

theorem proper_step (proper : call.isProper = true) (rest : (call.step now l).2.rest? call = some call') :
    call'.isProper = true := by
  cases call with
  | ask q s =>
    simp only [step, Link.onClient, Turn.rest?_lift] at rest
    obtain ⟨s, -, rfl⟩ := Option.map_eq_some_iff.mp rest
    exact proper
  | lookUp q s =>
    simp only [step, Link.onClient, Turn.rest?_lift] at rest
    obtain ⟨s, -, rfl⟩ := Option.map_eq_some_iff.mp rest
    exact proper
  | greet s =>
    simp only [step, Link.onClient, Turn.rest?_lift] at rest
    obtain ⟨s, -, rfl⟩ := Option.map_eq_some_iff.mp rest
    rfl
  | shutDown s =>
    simp only [step, Turn.rest?_lift] at rest
    obtain ⟨s, -, rfl⟩ := Option.map_eq_some_iff.mp rest
    rfl

theorem greetStage_step {s' : GreetStage} (rest : (call.step now l).2.rest? call = some call')
    (stage : call'.greetStage? = some s') :
    ∃ s, call = .greet s ∧ (l.client.greet now s).2.rest? s = some s' := by
  cases call with
  | greet s =>
    simp only [step, Link.onClient, Turn.rest?_lift] at rest
    obtain ⟨s, stands, rfl⟩ := Option.map_eq_some_iff.mp rest
    cases stage
    exact ⟨_, rfl, stands⟩
  | ask | lookUp =>
    simp only [step, Link.onClient, Turn.rest?_lift] at rest
    obtain ⟨s, -, rfl⟩ := Option.map_eq_some_iff.mp rest
    cases stage
  | shutDown =>
    simp only [step, Turn.rest?_lift] at rest
    obtain ⟨s, -, rfl⟩ := Option.map_eq_some_iff.mp rest
    cases stage

theorem advances_step (now : Nat) (l : Link) (proper : call.isProper = true)
    (told : ∀ s, call.greetStage? = some s → s.Conveys l.client.config.initOptions) :
    l.Advances (∃ s, call.greetStage? = some s ∧ s.HasSent) (call.step now l).1 := by
  cases call with
  | ask q s =>
    have other : q.Conveys l.client.config.initOptions := fun first => absurd first (by simpa [isProper] using proper)
    refine .of_welcome (continues_step _ now l) (fun h => ?_) (Client.welcome_ask q now l.client s)
    exact h.takes (continues_step (.ask q s) now l) (Client.queues_ask other.allowed now l.client s).toTakes
  | lookUp q s =>
    have other : q.query.Conveys l.client.config.initOptions :=
      fun first => absurd first (by simpa [isProper] using proper)
    refine .of_welcome (continues_step _ now l) (fun h => ?_) (Client.welcome_lookUp q now l.client s)
    exact h.takes (continues_step (.lookUp q s) now l) (Client.queues_lookUp other.allowed now l.client s).toTakes
  | greet s =>
    obtain ⟨continues, conveys, greeting⟩ := Link.Advances.greet now l (told s rfl)
    exact ⟨continues, conveys, fun there => (greeting there).imp_right fun sent => ⟨s, rfl, sent⟩⟩
  | shutDown s => exact .shutDown now l s

end ClientCall

/-! An answer to a first request. -/

namespace Shape

/-- Fields that may be missing are missing from an empty object. -/
theorem readFields_absent (fuel : Nat) (outer : Shape) {fields : Fields}
    (optional : ∀ f ∈ fields, f.2.1 = .optional) : readFields fuel outer ⟨false, []⟩ fields = some [] := by
  induction fields with
  | nil => simp [readFields]
  | cons field rest ih =>
    obtain ⟨name, presence, s⟩ := field
    obtain rfl : presence = .optional := optional _ List.mem_cons_self
    have absent : Json.Record.optional ⟨false, []⟩ name (readFrom fuel outer s) = some none :=
      Json.Record.optional_none rfl rfl
    simp [readFields, absent, ih fun f there => optional f (List.mem_cons_of_mem _ there)]

/-- A server that can do nothing in particular. -/
def silent : Json := .obj [("capabilities", .obj [])]

def isSilent : Json → Bool
  | .obj [("capabilities", .obj [])] => true
  | _ => false

theorem eq_silent {j : Json} (h : isSilent j = true) : j = silent := by
  unfold isSilent at h
  split at h
  · rfl
  · cases h

theorem read_silent : initializeResult.read? silent = some silent := by
  have able (fuel : Nat) (outer : Shape) :
      readFrom fuel outer serverCapabilities (.obj []) = some (.obj []) := by
    simp [serverCapabilities, readFrom, Json.Record.ofJson?, Json.Record.occurrences, readFields_absent, may,
      Json.object]
    rfl
  simp [initializeResult, silent, Shape.read?, readFrom, readFields, Json.Record.ofJson?,
    Json.Record.occurrences, Json.Record.required, Json.Record.optional, able, need, may, Json.object,
    List.lookup_cons, Table.ofList]
  rfl

end Shape

namespace Client

/-- The one response that has come is that the server can do nothing in particular. -/
theorem arrived_silent {c : Client} {id : RequestId}
    (read : c.arrived.map (fun r => (r.id, r.result.map Shape.isSilent, r.error.isNone)) =
      [(id, some true, true)]) : c.arrived = [⟨id, some Shape.silent, none⟩] := by
  obtain ⟨⟨id', result, error⟩, rest, arrived, same, none⟩ := List.map_eq_cons_iff.mp read
  cases List.map_eq_nil_iff.mp none
  obtain ⟨rfl, ⟨j, rfl, silent⟩, noError⟩ :
      id' = id ∧ (∃ j, result = some j ∧ Shape.isSilent j = true) ∧ error.isNone = true := by
    simpa using same
  cases Option.isNone_iff_eq_none.mp noError
  rw [arrived, Shape.eq_silent silent]

/-- The client once the answer to its first request is known. -/
def greeted (c : Client) (j : Json) : Client :=
  { c with
    arrived := []
    outbound := c.outbound ++ [.message (.notification ⟨"initialized", .obj []⟩)]
    isGreeting := false
    greeting := some j }

theorem greet_answered {c : Client} {q : Query} {now deadline : Nat} {id : Int32} {result j : Json}
    (arrived : c.arrived = [⟨.number id, some result, none⟩]) (isOpen : c.isQueueOpen = true)
    (read : q.result.read? result = some j) :
    c.greet now (.asking q (.waiting id deadline)) = (c.greeted j, .done (.ok j)) := by
  have understood : understand q.method q.result ⟨.number id, some result, none⟩ = .ok j := by
    simp [understand, read]
  have asked : c.ask q now (.waiting id deadline) = ({ c with arrived := [] }, .done (.ok j)) := by
    simp [ask, exchange, take?, arrived, Turn.lift, outcome, understood]
  simp [greet, asked, notify, send, enqueue, isOpen, greeted]

end Client

end LanguageHost
