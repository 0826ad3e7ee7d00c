import LanguageHost.Proofs.Session.Introduction
import LanguageHost.Proofs.Session.Shutdown

/-!
Attempts to greet a server, stride by stride. One is under way at a time. It ends in the turn in which its call
does; if it has succeeded by then what the server answered is known and the server is told so, and if not nothing
is left of it. Nothing else in a session has to do with greetings.
-/
namespace LanguageHost

namespace Outbound

/-- A first request. -/
def IsFirst (o : Outbound) : Prop := ∃ r : Request, o = .message (.request r) ∧ r.method = "initialize"

/-- The word that the handshake is done. -/
def IsInitialized (o : Outbound) : Prop := ∃ params, o = .message (.notification ⟨"initialized", params⟩)

/-- What is said in a handshake and at no other time. -/
def Greets (o : Outbound) : Prop := o.IsFirst ∨ o.IsInitialized

theorem not_greets_notification {method : String} (other : method ≠ "initialized") (params : Json) :
    ¬ Greets (.message (.notification ⟨method, params⟩)) := by
  rintro (⟨r, same, -⟩ | ⟨params', same⟩)
  · cases same
  · cases same
    exact other rfl

theorem not_greets_response {o : Outbound} (h : Listener.IsResponse o) : ¬ o.Greets := by
  obtain ⟨r, rfl⟩ := h
  rintro (⟨r, same, -⟩ | ⟨params, same⟩)
  · cases same
  · cases same

theorem not_greets_close : ¬ Greets .close := by
  rintro (⟨r, same, -⟩ | ⟨params, same⟩)
  · cases same
  · cases same

end Outbound

theorem Query.not_greets {q : Query} (other : q.method ≠ "initialize") : q.Allowed fun o => ¬ o.Greets := by
  constructor
  · rintro id (⟨r, same, first⟩ | ⟨params, same⟩)
    · cases same
      exact other first
    · cases same
  · exact fun id => Outbound.not_greets_notification (by decide) _

namespace Client

variable {q : Query} {now : Nat} {c c' : Client} {s : AskStage} {turn : Turn AskStage Answer}

/-- What a step of a query puts into the queue: its request, or that it was given up. -/
theorem Asked.accepted (h : c.Asked q now s c' turn) :
    c.accepted c' = [] ∨
      (∃ id deadline, s = .registered id ∧ turn = .go (.waiting id deadline) ∧
        c.accepted c' = [.message (q.request id)]) ∨
      ∃ id, c.accepted c' = [.message (cancellation id)] := by
  cases h with
  | sent id isOpen => exact .inr (.inl ⟨id, _, rfl, rfl, List.drop_left⟩)
  | told id isOpen => exact .inr (.inr ⟨_, List.drop_left⟩)
  | _ => exact .inl (accepted_of_shorter (Nat.le_refl _))

/-- No query says that the handshake is done. -/
theorem Asked.early (h : c.Asked q now s c' turn) : ∀ o ∈ c.accepted c', ¬ o.IsInitialized := by
  intro o there
  rcases h.accepted with nothing | ⟨id, _, -, -, request⟩ | ⟨id, cancelled⟩
  · rw [nothing] at there
    cases there
  · rw [request, List.mem_singleton] at there
    subst there
    rintro ⟨params, same⟩
    cases same
  · rw [cancelled, List.mem_singleton] at there
    subst there
    exact fun said => Outbound.not_greets_notification (by decide) _ (.inr said)

/-- The last step of a query sends no request. -/
theorem Asked.quiet {a : Answer} (h : c.Asked q now s c' (.done a)) : ∀ o ∈ c.accepted c', ¬ o.Greets := by
  intro o there
  rcases h.accepted with nothing | ⟨id, _, -, goes, -⟩ | ⟨id, cancelled⟩
  · rw [nothing] at there
    cases there
  · cases goes
  · rw [cancelled, List.mem_singleton] at there
    exact there ▸ Outbound.not_greets_notification (by decide) _

/-- A query has been sent before, or is sent in this step. -/
theorem Asked.sends {s' : AskStage} (h : c.Asked q now s c' (.go s')) {id : Int32} (sent : s'.sent? = some id) :
    s.sent? = some id ∨ c.accepted c' = [.message (q.request id)] := by
  cases h with
  | sent =>
    cases sent
    exact .inr List.drop_left
  | expired | withdrawn => exact .inl sent
  | admitted | numbered | registered | refused => cases sent

end Client

namespace Link

theorem welcome_overrun (l : Link) (hand : Hand) : (l.overrun hand).client.welcome = l.client.welcome := by
  unfold overrun
  split
  · split
    · next moved =>
      have stepped := welcome_step moved
      exact stepped
    · rfl
  · rfl

end Link

/-- The end of a session says nothing of a handshake. -/
theorem Link.takes_shutDown (now : Nat) (l : Link) (s : EndStage) :
    l.client.Takes (fun o => ¬ o.Greets) (l.shutDown now s).1.client := by
  by_cases said : l.Acknowledged now s
  · refine ((queues_acknowledged said).mono ?_).toTakes
    rintro o rfl
    exact Outbound.not_greets_notification (by decide) _
  · exact (queues_shutDown (Query.not_greets (by decide)) Outbound.not_greets_close said).toTakes

namespace Session

/-- Only greetings take part in a handshake. -/
def Stride.isProper : Stride → Bool
  | .move (.begin call) => call.isProper
  | .move (.act (.notify method _)) => method != "initialized"
  | _ => true

variable {s : Session} {x : Stride} {k : Nat} {q : Query} {st : AskStage}

/-- The attempt of a call to greet the server has come to a stage. -/
def Attempts (s : Session) (k : Nat) (q : Query) (st : AskStage) : Prop :=
  s.calls k = some (.greet (.asking q st))

/-- What a greeting comes to at its next turn. -/
def Returns (s : Session) (k : Nat) (r : Except Error Json) : Prop :=
  ∃ stage, s.calls k = some (.greet stage) ∧ (s.link.client.greet s.now stage).2 = .done r

/-- An attempt succeeds at its next turn: the response to its request has come and is understood, and the
server can still be told. -/
structure Succeeds (s : Session) (k : Nat) (q : Query) (id : Int32) (r : Response) (j : Json) : Prop where
  attempt : ∃ deadline, s.Attempts k q (.waiting id deadline)
  there : r ∈ s.link.client.arrived
  own : r.id = .number id
  understood : Client.understand q.method q.result r = .ok j
  isOpen : s.link.client.isQueueOpen = true

/-- The turn in which an attempt succeeds: its call returns, the answer of the server is known, and the server
is told that the handshake is done. -/
structure Concludes (s : Session) (k : Nat) (q : Query) (id : Int32) (r : Response) (j : Json) : Prop
    extends s.Succeeds k q id r j where
  returns : s.Returns k (.ok j)
  known : (s.stride (.move (.turn k))).link.client.greeting = some j
  said : s.link.client.accepted (s.stride (.move (.turn k))).link.client = [.message .initialized]

/-- Why a greeting fails at its next turn, and what is made of that. -/
inductive Fails (s : Session) (k : Nat) : Error → Prop
  /-- there is no first request for the workspace -/
  | unmade {e : Error} (fresh : s.calls k = some (.greet .fresh))
      (bad : Client.greetingQuery s.link.client.config = .error e) : Fails s k e
  | barred {q : Query} (attempt : s.Attempts k q .fresh) (closed : s.link.client.isClosed = true) :
      Fails s k s.link.client.gone
  | refused {q : Query} {id : Int32} (attempt : s.Attempts k q (.refused id)) : Fails s k s.link.client.gone
  /-- the response is an error, or is not understood -/
  | answered {q : Query} {id : Int32} {deadline : Nat} {r : Response} {e : Error}
      (attempt : s.Attempts k q (.waiting id deadline)) (there : r ∈ s.link.client.arrived)
      (own : r.id = .number id) (failed : Client.understand q.method q.result r = .error e) : Fails s k e
  /-- the response has come, but the server cannot be told any more -/
  | untold {q : Query} {id : Int32} {deadline : Nat} {r : Response} {j : Json}
      (attempt : s.Attempts k q (.waiting id deadline)) (there : r ∈ s.link.client.arrived)
      (own : r.id = .number id) (understood : Client.understand q.method q.result r = .ok j)
      (shut : s.link.client.isQueueOpen = false) : Fails s k s.link.client.gone
  /-- the server's output has ended -/
  | lost {q : Query} {id : Int32} {deadline : Nat} (attempt : s.Attempts k q (.waiting id deadline))
      (missing : ∀ r ∈ s.link.client.arrived, r.id ≠ .number id)
      (unlisted : .number id ∉ s.link.client.pending) : Fails s k s.link.client.gone
  | late {q : Query} {id : Int32} (attempt : s.Attempts k q (.withdrawn id)) :
      Fails s k (.timeout (s.link.client.config.timeout / 1000))

/-! What a stride does. -/

/-- The stride is the turn of a greeting. -/
def GreetsNext (s : Session) (x : Stride) : Prop :=
  ∃ k stage, x = .move (.turn k) ∧ s.calls k = some (.greet stage)

theorem welcome_stride (other : ¬ s.GreetsNext x) :
    (s.stride x).link.client.welcome = s.link.client.welcome := by
  cases x with
  | overrun hand => exact s.link.welcome_overrun hand
  | move m =>
    cases m with
    | begin call =>
      simp only [stride, next]
      split <;> rfl
    | pass time => rfl
    | act a => exact s.link.welcome_act a
    | turn k =>
      cases there : s.calls k with
      | none => simp only [stride, next, there]
      | some call =>
        rw [link_turn there]
        cases call with
        | ask q st => exact Client.welcome_ask q s.now s.link.client st
        | lookUp q st => exact Client.welcome_lookUp q s.now s.link.client st
        | greet stage => exact absurd ⟨k, stage, rfl, there⟩ other
        | shutDown st => exact Link.welcome_shutDown s.now s.link st

/-- The attempts that are under way when one call has come to something else. -/
theorem attempts_update {s' : Session} {call? : Option ClientCall}
    (calls : s'.calls = Function.update s.calls k call?) (j : Nat) (q : Query) (st : AskStage) :
    s'.Attempts j q st ↔
      j = k ∧ call? = some (.greet (.asking q st)) ∨ j ≠ k ∧ s.Attempts j q st := by
  unfold Attempts
  by_cases same : j = k
  · subst same
    simp [calls]
  · simp [calls, same]

/-- Where no other call makes an attempt, the one that has come to something else is the only one afterwards. -/
theorem attempts_alone {s' : Session} {call? : Option ClientCall}
    (alone : ∀ j q st, s.Attempts j q st → j = k) (calls : s'.calls = Function.update s.calls k call?)
    (j : Nat) (q : Query) (st : AskStage) :
    s'.Attempts j q st ↔ j = k ∧ call? = some (.greet (.asking q st)) := by
  rw [attempts_update calls]
  constructor
  · rintro (there | ⟨other, attempt⟩)
    · exact there
    · exact absurd (alone j q st attempt) other
  · exact .inl

/-- What was no attempt and becomes none leaves the attempts as they are. -/
theorem attempts_kept {s' : Session} {call? : Option ClientCall}
    (calls : s'.calls = Function.update s.calls k call?)
    (before : ∀ q st, ¬ s.Attempts k q st) (after : ∀ q st, call? ≠ some (.greet (.asking q st)))
    (j : Nat) (q : Query) (st : AskStage) : s'.Attempts j q st ↔ s.Attempts j q st := by
  rw [attempts_update calls]
  constructor
  · rintro (⟨-, attempt⟩ | ⟨-, attempt⟩)
    · exact absurd attempt (after q st)
    · exact attempt
  · intro attempt
    refine .inr ⟨?_, attempt⟩
    rintro rfl
    exact before q st attempt

theorem attempts_stride (kept : s.Kept) (other : ¬ s.GreetsNext x) (j : Nat) (q : Query) (st : AskStage) :
    (s.stride x).Attempts j q st ↔ s.Attempts j q st := by
  cases x with
  | overrun hand => rfl
  | move m =>
    cases m with
    | pass time => rfl
    | act a => rfl
    | begin call =>
      simp only [stride, next]
      split
      · next fresh =>
        refine attempts_kept (k := s.tickets) rfl (fun q st attempt => ?_) ?_ j q st
        · exact Nat.lt_irrefl _ (kept.begun _ _ attempt)
        · rintro q st ⟨⟩
          cases fresh
      · rfl
    | turn k =>
      cases there : s.calls k with
      | none => simp only [stride, next, there]
      | some call =>
        have turned : (s.stride (.move (.turn k))).calls =
            Function.update s.calls k ((call.step s.now s.link).2.rest? call) := by
          simp only [stride, next, there]
          rfl
        refine attempts_kept turned (fun q st attempt => ?_) (fun q st rest => ?_) j q st
        · exact other ⟨k, _, rfl, attempt⟩
        · obtain ⟨stage, rfl, -⟩ := ClientCall.greetStage_step rest rfl
          exact other ⟨k, stage, rfl, there⟩

theorem passes_others (calls : ∀ k call, s.calls k = some call → call.isProper = true)
    (proper : x.isProper = true) (other : ¬ s.GreetsNext x) :
    s.link.Passes (fun o => ¬ o.Greets) (s.stride x).link := by
  refine s.passes_stride_of x (fun o => Outbound.not_greets_response) (fun params => ⟨?_, ?_⟩) ?_ ?_
  · exact Outbound.not_greets_notification (by decide) params
  · exact Outbound.not_greets_notification (by decide) params
  · rintro method params rfl
    exact Outbound.not_greets_notification (by simpa [Stride.isProper] using proper) params
  · rintro k call rfl there
    have fits := calls k call there
    cases call with
    | ask q st =>
      have plain := Query.not_greets (q := q) (by simpa [ClientCall.isProper] using fits)
      exact (Client.queues_ask plain s.now s.link.client st).toTakes
    | lookUp q st =>
      have plain := Query.not_greets (q := q.query) (by simpa [ClientCall.isProper] using fits)
      exact (Client.queues_lookUp plain s.now s.link.client st).toTakes
    | greet stage => exact absurd ⟨k, stage, rfl, there⟩ other
    | shutDown st => exact s.link.takes_shutDown s.now st

/-- All that a stride can do to a handshake. -/
inductive Meets (s : Session) (x : Stride) : Prop
  | apart (welcome : (s.stride x).link.client.welcome = s.link.client.welcome)
      (attempts : ∀ k q st, (s.stride x).Attempts k q st ↔ s.Attempts k q st)
      (quiet : ∀ o ∈ s.link.client.accepted (s.stride x).link.client, ¬ o.Greets)
  | starts (k : Nat) (q : Query) (before : s.link.client.welcome = (none, false))
      (after : (s.stride x).link.client.welcome = (none, true))
      (fresh : s.calls k = some (.greet .fresh)) (made : Client.greetingQuery s.link.client.config = .ok q)
      (calls : (s.stride x).calls = Function.update s.calls k (some (.greet (.asking q .fresh))))
      (quiet : s.link.client.accepted (s.stride x).link.client = [])
  | goes (k : Nat) (q : Query) (st st' : AskStage) (own : x = .move (.turn k)) (attempt : s.Attempts k q st)
      (welcome : (s.stride x).link.client.welcome = s.link.client.welcome)
      (calls : (s.stride x).calls = Function.update s.calls k (some (.greet (.asking q st'))))
      (sent : ∀ id, st'.sent? = some id → st.sent? = some id ∨
        s.link.client.accepted (s.stride x).link.client = [.message (q.request id)])
      (early : ∀ o ∈ s.link.client.accepted (s.stride x).link.client, ¬ o.IsInitialized)
  | fails (k : Nat) (q : Query) (st : AskStage) (attempt : s.Attempts k q st)
      (after : (s.stride x).link.client.welcome = (s.link.client.greeting, false))
      (calls : (s.stride x).calls = Function.update s.calls k none)
      (quiet : ∀ o ∈ s.link.client.accepted (s.stride x).link.client, ¬ o.Greets)
  | succeeds (k : Nat) (q : Query) (id : Int32) (r : Response) (j : Json) (own : x = .move (.turn k))
      (concludes : s.Concludes k q id r j) (idle : (s.stride x).link.client.isGreeting = false)
      (calls : (s.stride x).calls = Function.update s.calls k none)

/-- What the turn of a greeting makes of the client and of the call. -/
theorem stride_greet {stage : GreetStage} (there : s.calls k = some (.greet stage)) :
    (s.stride (.move (.turn k))).link.client = (s.link.client.greet s.now stage).1 ∧
      (s.stride (.move (.turn k))).calls =
        Function.update s.calls k (((s.link.client.greet s.now stage).2.rest? stage).map .greet) := by
  have rest := Turn.rest?_lift ClientCall.greet Outcome.answered stage (s.link.client.greet s.now stage).2
  simp only [stride, next, there]
  exact ⟨rfl, congrArg (Function.update s.calls k) rest⟩

/-- A greeting that makes no attempt. -/
theorem Meets.of_idle {call? : Option ClientCall} (fresh : s.calls k = some (.greet .fresh))
    (client : (s.stride x).link.client = s.link.client)
    (calls : (s.stride x).calls = Function.update s.calls k call?)
    (after : ∀ q st, call? ≠ some (.greet (.asking q st))) : s.Meets x := by
  refine .apart (by rw [client]) (attempts_kept calls (fun q st attempt => ?_) after) ?_
  · cases fresh.symm.trans attempt
  · rw [client, Client.accepted_of_shorter (Nat.le_refl _)]
    rintro o ⟨⟩

theorem concludes_of_returns {j : Json} (there : s.calls k = some (.greet (.asking q st)))
    (ended : (s.link.client.greet s.now (.asking q st)).2 = .done (.ok j)) :
    ∃ id r, s.Concludes k q id r j := by
  obtain ⟨client, -⟩ := stride_greet there
  have returns : s.Returns k (.ok j) := ⟨_, there, ended⟩
  -- of all that a query can end in, only a response is understood
  have greeted := s.link.client.greet_greeted s.now (.asking q st)
  rw [ended] at greeted
  generalize (s.link.client.greet s.now (.asking q st)).1 = c at client greeted
  cases greeted with
  | @succeeds _ _ c a _ asked understood isOpen =>
    cases a with
    | gone | late => cases understood
    | response r =>
      cases asked with
      | answered id deadline r come own =>
        refine ⟨id, r, ⟨⟨⟨deadline, there⟩, come, own, understood, isOpen⟩, returns, ?_, ?_⟩⟩
        · rw [client]
        · rw [client]
          exact List.drop_left

theorem fails_of_returns {e : Error} (h : s.Returns k (.error e)) : s.Fails k e := by
  obtain ⟨stage, there, ended⟩ := h
  have greeted := s.link.client.greet_greeted s.now stage
  rw [ended] at greeted
  generalize (s.link.client.greet s.now stage).1 = c at greeted
  cases greeted with
  | unmade _ _ _ bad => exact .unmade there bad
  | @fails q st c a _ asked failed =>
    cases a with
    | response r =>
      cases asked with
      | answered id deadline r come own => exact .answered there come own failed
    | gone =>
      cases failed
      cases asked with
      | barred closed => exact .barred there closed
      | left id => exact .refused there
      | lost id deadline missing unlisted => exact .lost there missing unlisted
    | late =>
      cases failed
      cases asked with
      | told id isOpen => exact .late there
      | untold id shut => exact .late there
  | @untold q st c a j asked understood shut =>
    cases a with
    | gone | late => cases understood
    | response r =>
      cases asked with
      | answered id deadline r come own => exact .untold there come own understood shut

theorem meets_turn {stage : GreetStage} (known : s.calls k = some (.greet stage)) :
    s.Meets (.move (.turn k)) := by
  obtain ⟨client, calls⟩ := stride_greet known
  have greeted := s.link.client.greet_greeted s.now stage
  rcases went : s.link.client.greet s.now stage with ⟨c, turn⟩
  rw [went] at client calls greeted
  cases greeted with
  | known j there => exact .of_idle known client calls (by rintro q st ⟨⟩)
  | waits unknown busy => exact .of_idle known client calls (by rintro q st ⟨⟩)
  | unmade e unknown idle bad => exact .of_idle known client calls (by rintro q st ⟨⟩)
  | starts q unknown idle made =>
    refine .starts k q ?_ ?_ known made calls ?_
    · rw [Client.welcome, unknown, idle]
    · rw [client, Client.welcome, unknown]
    · rw [client]
      exact Client.accepted_of_shorter (Nat.le_refl _)
  | @stays q st c d asked =>
    refine .goes k q st st rfl known ?_ calls (fun id => .inl) ?_
    · rw [client, asked.welcome]
    · exact client ▸ asked.early
  | @goes q st st' c asked =>
    refine .goes k q st st' rfl known ?_ calls (fun id sent => ?_) ?_
    · rw [client, asked.welcome]
    · exact client ▸ asked.sends sent
    · exact client ▸ asked.early
  | @fails q st c a e asked failed =>
    refine .fails k q st known ?_ calls ?_
    · rw [client, Client.welcome, Prod.mk.injEq]
      exact ⟨congrArg Prod.fst asked.welcome, rfl⟩
    · exact client ▸ asked.quiet
  | @untold q st c a j asked understood shut =>
    refine .fails k q st known ?_ calls ?_
    · rw [client, Client.welcome, Prod.mk.injEq]
      exact ⟨congrArg Prod.fst asked.welcome, rfl⟩
    · exact client ▸ asked.quiet
  | @succeeds q st c a j asked understood isOpen =>
    obtain ⟨id, r, concludes⟩ := concludes_of_returns known (by rw [went])
    exact .succeeds k q id r j rfl concludes (by rw [client]) calls

/-- A session in which greetings may be under way: one attempt at most, with the first request for the
workspace, and none once there is an answer. -/
structure Poised (s : Session) : Prop where
  kept : s.Kept
  proper : ∀ k call, s.calls k = some call → call.isProper = true
  query : ∀ k q st, s.Attempts k q st → Client.greetingQuery s.link.client.config = .ok q
  sole : ∀ k q st k' q' st', s.Attempts k q st → s.Attempts k' q' st' → k = k'
  busy : s.link.client.isGreeting = true ↔ ∃ k q st, s.Attempts k q st
  settled : s.link.client.greeting.isSome = true → s.link.client.isGreeting = false

/-- A session without an attempt. -/
theorem poised_idle (kept : s.Kept) (proper : ∀ k call, s.calls k = some call → call.isProper = true)
    (idle : s.link.client.isGreeting = false) (none : ∀ k q st, ¬ s.Attempts k q st) : s.Poised := by
  refine ⟨kept, proper, ?_, ?_, ?_, fun _ => idle⟩
  · intro k q st attempt
    exact absurd attempt (none k q st)
  · intro k q st k' q' st' attempt
    exact absurd attempt (none k q st)
  · refine iff_of_false (by rw [idle]; rintro ⟨⟩) ?_
    rintro ⟨k, q, st, attempt⟩
    exact none k q st attempt

/-- A session with the attempt of one call. -/
theorem poised_busy (kept : s.Kept) (proper : ∀ k call, s.calls k = some call → call.isProper = true)
    (welcome : s.link.client.welcome = (none, true)) (made : Client.greetingQuery s.link.client.config = .ok q)
    (alone : ∀ j q' st', s.Attempts j q' st' ↔ j = k ∧ some (.greet (.asking q st)) = some
      (ClientCall.greet (.asking q' st'))) : s.Poised := by
  obtain ⟨unknown, busy⟩ := Prod.mk.inj welcome
  refine ⟨kept, proper, ?_, ?_, ?_, ?_⟩
  · intro j q' st' attempt
    obtain ⟨-, same⟩ := (alone j q' st').mp attempt
    cases same
    exact made
  · intro j q₁ st₁ j' q₂ st₂ attempt attempt'
    exact ((alone j q₁ st₁).mp attempt).1.trans ((alone j' q₂ st₂).mp attempt').1.symm
  · exact iff_of_true busy ⟨k, q, st, (alone k q st).mpr ⟨rfl, rfl⟩⟩
  · rw [unknown]
    rintro ⟨⟩

namespace Poised

theorem start (now : Nat) (language : String) (config : ClientConfig) (server : Peer)
    (process : Option Invocation) : (start now language config server process).Poised := by
  refine poised_idle ⟨?_, ?_⟩ ?_ rfl ?_
  · rintro k call ⟨⟩
  · rintro k st ⟨⟩
  · rintro k call ⟨⟩
  · rintro k q st ⟨⟩

theorem unattempted (h : s.Poised) (idle : s.link.client.isGreeting = false) (k : Nat) (q : Query) (st : AskStage) :
    ¬ s.Attempts k q st := by
  intro attempt
  cases idle.symm.trans (h.busy.mpr ⟨k, q, st, attempt⟩)

/-- While an attempt is under way there is no answer. -/
theorem welcome (h : s.Poised) (attempt : s.Attempts k q st) : s.link.client.welcome = (none, true) := by
  have busy := h.busy.mpr ⟨k, q, st, attempt⟩
  cases known : s.link.client.greeting with
  | none => rw [Client.welcome, known, busy]
  | some j => cases busy.symm.trans (h.settled (by rw [known]; rfl))

theorem meets (h : s.Poised) (proper : x.isProper = true) : s.Meets x := by
  by_cases greets : s.GreetsNext x
  · obtain ⟨k, stage, rfl, known⟩ := greets
    exact meets_turn known
  · exact .apart (welcome_stride greets) (attempts_stride h.kept greets)
      fun o there => (passes_others h.proper proper greets).mem_accepted there

theorem proper_stride (h : s.Poised) (proper : x.isProper = true) :
    ∀ k call, (s.stride x).calls k = some call → call.isProper = true := by
  intro k call there
  rcases call_of_stride there with before | ⟨-, -, -, rfl⟩ | ⟨before, known, -, rest⟩
  · exact h.proper k call before
  · exact proper
  · exact ClientCall.proper_step (h.proper k before known) rest

theorem stride (h : s.Poised) (proper : x.isProper = true) : (s.stride x).Poised := by
  have config : (s.stride x).link.client.config = s.link.client.config := (s.continues_stride x).client.config
  have kept := h.kept.stride x
  have propers := h.proper_stride proper
  -- a call that has ended its attempt has ended the only one
  have ended {k : Nat} {q : Query} {st : AskStage} (attempt : s.Attempts k q st)
      (calls : (s.stride x).calls = Function.update s.calls k none)
      (idle : (s.stride x).link.client.isGreeting = false) : (s.stride x).Poised := by
    refine poised_idle kept propers idle fun j q' st' there => ?_
    rw [attempts_alone (fun j q' st' other => h.sole _ _ _ _ _ _ other attempt) calls] at there
    cases there.2
  cases h.meets proper with
  | apart welcome attempts =>
    obtain ⟨greeting, isGreeting⟩ := Prod.mk.inj welcome
    refine ⟨kept, propers, ?_, ?_, ?_, ?_⟩
    · intro k q st there
      rw [config]
      exact h.query k q st ((attempts k q st).mp there)
    · intro k q st k' q' st' there there'
      exact h.sole k q st k' q' st' ((attempts k q st).mp there) ((attempts k' q' st').mp there')
    · rw [isGreeting, h.busy]
      simp only [attempts]
    · rw [greeting, isGreeting]
      exact h.settled
  | starts k q before after fresh made calls =>
    have idle := h.unattempted (Prod.mk.inj before).2
    exact poised_busy kept propers after (config ▸ made)
      (attempts_alone (fun j q st there => absurd there (idle j q st)) calls)
  | goes k q st st' own attempt welcome calls =>
    exact poised_busy kept propers (welcome.trans (h.welcome attempt)) (config ▸ h.query k q st attempt)
      (attempts_alone (fun j q' st' other => h.sole _ _ _ _ _ _ other attempt) calls)
  | fails k q st attempt after calls => exact ended attempt calls (Prod.mk.inj after).2
  | succeeds k q id r j own concludes idle calls =>
    obtain ⟨deadline, attempt⟩ := concludes.attempt
    exact ended attempt calls idle

theorem course (h : s.Poised) {strides : List Stride} (proper : ∀ x ∈ strides, x.isProper = true) :
    (s.course strides).Poised := by
  induction strides generalizing s with
  | nil => exact h
  | cons x xs ih =>
    exact ih (h.stride (proper x List.mem_cons_self)) fun y there => proper y (List.mem_cons_of_mem _ there)

end Poised

end Session

end LanguageHost
