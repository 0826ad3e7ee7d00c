import Mathlib.Data.List.Induction
import LanguageHost.Proofs.Session.Aftermath
import LanguageHost.Proofs.Session.Attempts

/-!
The handshake. Any number of calls may greet the server, at any time and in any order. An attempt that fails
leaves the client as it was, so that whoever comes next makes another. The first that succeeds says that the
handshake is done and is the last: its answer is everybody's from then on, and the server hears no more of it.
-/
namespace LanguageHost

namespace Session

variable {s : Session} {x : Stride} {k : Nat} {q : Query} {st : AskStage}

/-! Before the first success. -/

/-- A turn of an attempt ends it, or brings it nearer to its end, or waits for a response until a time to
come. -/
def Nears (now : Nat) (q : Query) (st : AskStage) : Turn GreetStage (Except Error Json) → Prop
  | .wait d => ∃ id deadline, st = .waiting id deadline ∧ d = some deadline ∧ now < deadline
  | .go stage => ∃ st', stage = .asking q st' ∧ st'.rank < st.rank
  | .done _ => True

/-- No attempt has succeeded yet. -/
structure Unwelcomed (s : Session) : Prop where
  capabilities : s.link.client.capabilities = none
  sole : ∀ k q st k' q' st', s.Attempts k q st → s.Attempts k' q' st' → k = k'
  /-- what comes of a call is what comes of its own attempt -/
  returns : ∀ k r, s.Returns k r → (∃ e, r = .error e ∧ s.Fails k e) ∨
    ∃ q id answer j, r = .ok j ∧ s.Concludes k q id answer j
  /-- a failure leaves nothing behind -/
  clears : ∀ k e, s.Returns k (.error e) → (s.stride (.move (.turn k))).link.client.greeting = none ∧
    (s.stride (.move (.turn k))).calls k = none ∧ ∀ j q st, ¬ (s.stride (.move (.turn k))).Attempts j q st
  /-- a call waits for the attempt that is under way -/
  waits : ∀ k, s.calls k = some (.greet .fresh) → (∃ j q st, s.Attempts j q st) →
    (s.stride (.move (.turn k))).calls k = some (.greet .fresh)
  /-- a call makes an attempt of its own when none is under way -/
  retries : ∀ k, s.calls k = some (.greet .fresh) → (∀ j q st, ¬ s.Attempts j q st) →
    (∀ q, Client.greetingQuery s.link.client.config = .ok q → (s.stride (.move (.turn k))).Attempts k q .fresh) ∧
      ∀ e, Client.greetingQuery s.link.client.config = .error e → s.Returns k (.error e)
  nears : ∀ k q st, s.Attempts k q st → Nears s.now q st (s.link.client.greet s.now (.asking q st)).2
  /-- an attempt comes to its end by its own turns, as time passes -/
  ends : ∀ k q st, s.Attempts k q st → ∃ own : List Stride,
    (∀ x ∈ own, x = .move (.turn k) ∨ ∃ time, x = .move (.pass time)) ∧ ∃ r, (s.course own).Returns k r

theorem welcome_of_error {stage : GreetStage} {e : Error} (there : s.calls k = some (.greet stage))
    (ended : (s.link.client.greet s.now stage).2 = .done (.error e)) :
    (s.stride (.move (.turn k))).link.client.welcome = (s.link.client.greeting, false) ∧
      (s.stride (.move (.turn k))).calls k = none := by
  obtain ⟨client, calls⟩ := stride_greet there
  rw [ended] at calls
  refine ⟨?_, by rw [calls]; exact Function.update_self ..⟩
  have greeted := s.link.client.greet_greeted s.now stage
  rw [ended] at greeted
  rw [client]
  generalize (s.link.client.greet s.now stage).1 = c at greeted
  cases greeted with
  | unmade _ _ idle => rw [Client.welcome, idle]
  | fails asked | untold asked => exact Prod.mk.injEq .. ▸ ⟨congrArg Prod.fst asked.welcome, rfl⟩

theorem nears_attempt (s : Session) (q : Query) (st : AskStage) :
    Nears s.now q st (s.link.client.greet s.now (.asking q st)).2 := by
  have greeted := s.link.client.greet_greeted s.now (.asking q st)
  generalize s.link.client.greet s.now (.asking q st) = went at greeted ⊢
  obtain ⟨c, turn⟩ := went
  dsimp only at greeted
  cases greeted with
  | fails | untold | succeeds => trivial
  | goes asked => exact ⟨_, rfl, asked.rank_lt⟩
  | stays asked =>
    cases asked with
    | waits id deadline _ early => exact ⟨id, deadline, rfl, rfl, early⟩

theorem ends_attempt (attempt : s.Attempts k q st) : ∃ own : List Stride,
    (∀ x ∈ own, x = .move (.turn k) ∨ ∃ time, x = .move (.pass time)) ∧
      ∃ r, (s.course own).Returns k r := by
  induction rank : st.rank using Nat.strongRecOn generalizing s st with
  | ind n ih =>
  subst rank
  -- a turn that does not wait ends the attempt or lowers the rank of its stage
  have turns (t : Session) (attempt : t.Attempts k q st)
      (ready : ∀ d, (t.link.client.greet t.now (.asking q st)).2 ≠ .wait d) : ∃ own : List Stride,
      (∀ x ∈ own, x = .move (.turn k) ∨ ∃ time, x = .move (.pass time)) ∧
        ∃ r, (t.course own).Returns k r := by
    have nears := t.nears_attempt q st
    obtain ⟨-, calls⟩ := stride_greet attempt
    cases turned : (t.link.client.greet t.now (.asking q st)).2 with
    | wait d => exact absurd turned (ready d)
    | done r => exact ⟨[], by rintro _ ⟨⟩, r, _, attempt, turned⟩
    | go stage =>
      rw [turned] at nears calls
      obtain ⟨st', rfl, nearer⟩ := nears
      have later : (t.stride (.move (.turn k))).Attempts k q st' := by
        rw [Attempts, calls]
        exact Function.update_self ..
      obtain ⟨own, fair, returns⟩ := ih _ nearer later rfl
      refine ⟨.move (.turn k) :: own, ?_, returns⟩
      rintro x (- | ⟨-, there⟩)
      · exact .inl rfl
      · exact fair x there
  -- one that waits has come to its deadline once time has passed
  cases turned : (s.link.client.greet s.now (.asking q st)).2 with
  | done r => exact turns s attempt (by rw [turned]; rintro d ⟨⟩)
  | go stage => exact turns s attempt (by rw [turned]; rintro d ⟨⟩)
  | wait d =>
    have nears := s.nears_attempt q st
    rw [turned] at nears
    obtain ⟨id, deadline, rfl, -, early⟩ := nears
    obtain ⟨own, fair, returns⟩ := turns (s.stride (.move (.pass deadline))) attempt (by
      intro d waits
      have nears := (s.stride (.move (.pass deadline))).nears_attempt q (.waiting id deadline)
      rw [waits] at nears
      obtain ⟨_, _, ⟨⟩, -, early'⟩ := nears
      exact absurd early' (Nat.not_lt.mpr (Nat.le_max_right s.now deadline)))
    refine ⟨.move (.pass deadline) :: own, ?_, returns⟩
    rintro x (- | ⟨-, there⟩)
    · exact .inr ⟨deadline, rfl⟩
    · exact fair x there

theorem Poised.unwelcomed (h : s.Poised) (unknown : s.link.client.greeting = none) : s.Unwelcomed := by
  refine ⟨?_, h.sole, ?_, ?_, ?_, ?_, fun k q st _ => s.nears_attempt q st, fun k q st => ends_attempt⟩
  · rw [Client.capabilities, unknown]
    rfl
  · intro k r returns
    cases r with
    | error e => exact .inl ⟨e, rfl, fails_of_returns returns⟩
    | ok j =>
      obtain ⟨stage, there, ended⟩ := returns
      cases stage with
      | asking q st =>
        obtain ⟨id, answer, concludes⟩ := concludes_of_returns there ended
        exact .inr ⟨q, id, answer, j, rfl, concludes⟩
      | fresh =>
        have greeted := s.link.client.greet_greeted s.now .fresh
        rw [ended] at greeted
        generalize (s.link.client.greet s.now .fresh).1 = c at greeted
        cases greeted with
        | known _ known => cases unknown.symm.trans known
  · rintro k e ⟨stage, there, ended⟩
    obtain ⟨welcome, ended'⟩ := welcome_of_error there ended
    obtain ⟨unknown', idle⟩ := Prod.mk.inj welcome
    exact ⟨unknown'.trans unknown, ended', (h.stride (x := .move (.turn k)) rfl).unattempted idle⟩
  · intro k fresh underWay
    have waits : (s.link.client.greet s.now .fresh).2 = .wait none := by
      simp only [Client.greet, unknown, h.busy.mpr underWay, if_true]
    rw [(stride_greet fresh).2, waits]
    exact Function.update_self ..
  · intro k fresh none
    have idle : s.link.client.isGreeting = false := by
      rw [← Bool.not_eq_true, h.busy]
      rintro ⟨j, q, st, attempt⟩
      exact none j q st attempt
    constructor
    · intro q made
      have starts : (s.link.client.greet s.now .fresh).2 = .go (.asking q .fresh) := by
        simp [Client.greet, unknown, idle, made]
      rw [Attempts, (stride_greet fresh).2, starts]
      exact Function.update_self ..
    · intro e bad
      exact ⟨.fresh, fresh, by simp [Client.greet, unknown, idle, bad]⟩

/-! After the first success. -/

/-- An attempt has succeeded, and what the server answered to it is known. -/
structure Welcomed (s : Session) (j : Json) : Prop where
  capabilities : s.link.client.capabilities = j.get? "capabilities"
  idle : ∀ k q st, ¬ s.Attempts k q st
  returns : ∀ k stage, s.calls k = some (.greet stage) → s.Returns k (.ok j)

variable {j : Json} {strides : List Stride}

theorem Poised.welcomed (h : s.Poised) (known : s.link.client.greeting = some j) : s.Welcomed j := by
  have idle := h.unattempted (h.settled (by rw [known]; rfl))
  refine ⟨by rw [Client.capabilities, known]; rfl, idle, fun k stage there => ?_⟩
  cases stage with
  | fresh => exact ⟨.fresh, there, by simp only [Client.greet, known]⟩
  | asking q st => exact absurd there (idle k q st)

/-- Nothing is said of a handshake any more. -/
theorem Poised.stride_known (h : s.Poised) (known : s.link.client.greeting = some j)
    (proper : x.isProper = true) : (s.stride x).link.client.greeting = some j ∧
      ∀ o ∈ s.link.client.accepted (s.stride x).link.client, ¬ o.Greets := by
  have idle := (h.welcomed known).idle
  cases h.meets proper with
  | apart welcome _ quiet => exact ⟨(Prod.mk.inj welcome).1.trans known, quiet⟩
  | starts k q before => cases known.symm.trans (Prod.mk.inj before).1
  | goes k q st _ _ attempt => exact absurd attempt (idle k q st)
  | fails k q st attempt => exact absurd attempt (idle k q st)
  | succeeds k q id r j' _ concludes =>
    obtain ⟨deadline, attempt⟩ := concludes.attempt
    exact absurd attempt (idle k q _)

theorem Poised.course_known (h : s.Poised) (known : s.link.client.greeting = some j)
    (proper : ∀ x ∈ strides, x.isProper = true) :
    (s.course strides).link.client.greeting = some j ∧ ∀ o ∈ s.accepted strides, ¬ o.Greets := by
  induction strides generalizing s with
  | nil => exact ⟨known, by rintro o ⟨⟩⟩
  | cons x xs ih =>
    obtain ⟨first, rest⟩ := List.forall_mem_cons.mp proper
    obtain ⟨known', quiet⟩ := h.stride_known known first
    obtain ⟨last, quiet'⟩ := ih (h.stride first) known' rest
    refine ⟨last, fun o there => ?_⟩
    rcases List.mem_append.mp there with now | later
    · exact quiet o now
    · exact quiet' o later

/-! The first success. -/

/-- Either nothing has succeeded after a stride, or it is the turn of the first attempt that does. -/
theorem Poised.stride_unknown (h : s.Poised) (unknown : s.link.client.greeting = none)
    (proper : x.isProper = true) :
    ((s.stride x).link.client.greeting = none ∧
      ∀ o ∈ s.link.client.accepted (s.stride x).link.client, ¬ o.IsInitialized) ∨
    ∃ k q id r j, x = .move (.turn k) ∧ s.Concludes k q id r j := by
  cases h.meets proper with
  | apart welcome _ quiet =>
    exact .inl ⟨(Prod.mk.inj welcome).1.trans unknown, fun o there said => quiet o there (.inr said)⟩
  | starts k q _ after _ _ _ quiet =>
    refine .inl ⟨(Prod.mk.inj after).1, ?_⟩
    rw [quiet]
    rintro o ⟨⟩
  | goes k q st st' _ _ welcome _ _ early => exact .inl ⟨(Prod.mk.inj welcome).1.trans unknown, early⟩
  | fails k q st _ after _ quiet =>
    exact .inl ⟨(Prod.mk.inj after).1.trans unknown, fun o there said => quiet o there (.inr said)⟩
  | succeeds k q id r j own concludes => exact .inr ⟨k, q, id, r, j, own, concludes⟩

theorem Poised.course_unknown (h : s.Poised) (unknown : s.link.client.greeting = none)
    (proper : ∀ x ∈ strides, x.isProper = true) :
    ((s.course strides).link.client.greeting = none ∧ ∀ o ∈ s.accepted strides, ¬ o.IsInitialized) ∨
    ∃ before k later q id r j, strides = before ++ .move (.turn k) :: later ∧
      (s.course before).link.client.greeting = none ∧ (s.course before).Concludes k q id r j ∧
      ∀ o ∈ s.accepted before, ¬ o.IsInitialized := by
  induction strides generalizing s with
  | nil => exact .inl ⟨unknown, by rintro o ⟨⟩⟩
  | cons x xs ih =>
    obtain ⟨first, rest⟩ := List.forall_mem_cons.mp proper
    rcases h.stride_unknown unknown first with ⟨unknown', early⟩ | ⟨k, q, id, r, j, rfl, concludes⟩
    · have both {ys : List Stride} (early' : ∀ o ∈ (s.stride x).accepted ys, ¬ o.IsInitialized) :
          ∀ o ∈ s.accepted (x :: ys), ¬ o.IsInitialized := by
        intro o there
        rcases List.mem_append.mp there with now | later
        · exact early o now
        · exact early' o later
      rcases ih (h.stride first) unknown' rest with
        ⟨last, early'⟩ | ⟨before, k, later, q, id, r, j, rfl, still, concludes, early'⟩
      · exact .inl ⟨last, both early'⟩
      · exact .inr ⟨x :: before, k, later, q, id, r, j, rfl, still, concludes, both early'⟩
    · exact .inr ⟨[], k, xs, q, id, r, j, rfl, unknown, concludes, by rintro o ⟨⟩⟩

theorem course_append (s : Session) (front back : List Stride) :
    s.course (front ++ back) = (s.course front).course back := List.foldl_append ..

theorem accepted_append (s : Session) (front back : List Stride) :
    s.accepted (front ++ back) = s.accepted front ++ (s.course front).accepted back := by
  induction front generalizing s with
  | nil => rfl
  | cons x front ih => exact (congrArg _ (ih (s.stride x))).trans (List.append_assoc ..).symm

/-- The request of a call's attempt was accepted in one of the strides, a turn of that call. -/
def Sends (s : Session) (strides : List Stride) (k : Nat) (q : Query) (id : Int32) : Prop :=
  ∃ before later, strides = before ++ .move (.turn k) :: later ∧
    (s.course before).link.client.accepted ((s.course before).stride (.move (.turn k))).link.client =
      [.message (q.request id)]

theorem Sends.concat {id : Int32} (h : s.Sends strides k q id) (x : Stride) :
    s.Sends (strides ++ [x]) k q id := by
  obtain ⟨before, later, rfl, sent⟩ := h
  exact ⟨before, later ++ [x], by rw [List.append_assoc, List.cons_append], sent⟩

/-- An attempt that waits for a response has sent its request. -/
theorem Poised.sends (h : s.Poised) (none : ∀ k q st, ¬ s.Attempts k q st)
    (proper : ∀ x ∈ strides, x.isProper = true) {id : Int32} (attempt : (s.course strides).Attempts k q st)
    (sent : st.sent? = some id) : s.Sends strides k q id := by
  induction strides using List.reverseRecOn generalizing k q st with
  | nil => exact absurd attempt (none k q st)
  | append_singleton xs x ih =>
    have first (y : Stride) (there : y ∈ xs) := proper y (List.mem_append_left _ there)
    have last := proper x (List.mem_append_right _ (List.mem_singleton_self x))
    rw [course_append] at attempt
    change ((s.course xs).stride x).Attempts k q st at attempt
    -- an attempt that was there before has sent its request before
    have before {st' : AskStage} (attempt : (s.course xs).Attempts k q st') (sent : st'.sent? = some id) :
        s.Sends (xs ++ [x]) k q id := (ih first attempt sent).concat x
    cases (h.course first).meets last with
    | apart _ attempts => exact before ((attempts k q st).mp attempt) sent
    | starts j q' _ _ _ _ calls =>
      rcases (attempts_update calls k q st).mp attempt with ⟨rfl, same⟩ | ⟨-, attempt⟩
      · cases same
        cases sent
      · exact before attempt sent
    | goes j q' st' st'' own attempt' _ calls sends =>
      rcases (attempts_update calls k q st).mp attempt with ⟨rfl, same⟩ | ⟨-, attempt⟩
      · cases same
        rcases sends id sent with already | now
        · exact before attempt' already
        · subst own
          exact ⟨xs, [], rfl, now⟩
      · exact before attempt sent
    | fails j q' st' _ _ calls =>
      rcases (attempts_update calls k q st).mp attempt with ⟨-, ⟨⟩⟩ | ⟨-, attempt⟩
      exact before attempt sent
    | succeeds j q' id' r j' _ _ _ calls =>
      rcases (attempts_update calls k q st).mp attempt with ⟨-, ⟨⟩⟩ | ⟨-, attempt⟩
      exact before attempt sent

/-- However the calls that greet a server are mixed with each other and with all else, and whatever the server
makes of each attempt: as long as none has succeeded, there is one under way at most, no capabilities are
known, each call gets what its own attempt comes to, and the next one tries again. The first that succeeds has
the response to its own request, which it has sent before. In that turn the server is told that the handshake
is done, as it has not been before and is not again; it gets no further first request, and from then on every
call that greets it is given the answer to that attempt. -/
theorem handshake_succeeds_once (now : Nat) (language : String) (config : ClientConfig) (server : Peer)
    (process : Option Invocation) (strides : List Stride) (proper : ∀ x ∈ strides, x.isProper = true) :
    let begun := start now language config server process
    let s := begun.course strides
    (s.link.client.greeting = none → s.Unwelcomed ∧ ∀ o ∈ begun.accepted strides, ¬ o.IsInitialized) ∧
    ∀ j, s.link.client.greeting = some j →
      (∀ more, (∀ x ∈ more, x.isProper = true) → (s.course more).Welcomed j) ∧
      ∃ before k later q id r, strides = before ++ .move (.turn k) :: later ∧
        let t := begun.course before
        let t' := t.stride (.move (.turn k))
        t.Unwelcomed ∧ Client.greetingQuery config = .ok q ∧ begun.Sends before k q id ∧
          t.Concludes k q id r j ∧
          begun.accepted strides = begun.accepted before ++ .message .initialized :: t'.accepted later ∧
          (∀ o ∈ begun.accepted before, ¬ o.IsInitialized) ∧ ∀ o ∈ t'.accepted later, ¬ o.Greets := by
  intro begun s
  have poised : begun.Poised := .start now language config server process
  have none (k : Nat) (q : Query) (st : AskStage) : ¬ begun.Attempts k q st := by rintro ⟨⟩
  have poised' : s.Poised := poised.course proper
  rcases poised.course_unknown rfl proper with
    ⟨unknown, early⟩ | ⟨before, k, later, q, id, r, j, rfl, still, concludes, early⟩
  · refine ⟨fun _ => ⟨poised'.unwelcomed unknown, early⟩, fun j known => ?_⟩
    cases unknown.symm.trans known
  · have first (x : Stride) (there : x ∈ before) := proper x (List.mem_append_left _ there)
    have rest (x : Stride) (there : x ∈ later) :=
      proper x (List.mem_append_right _ (List.mem_cons_of_mem _ there))
    have turned : s = ((begun.course before).stride (.move (.turn k))).course later := course_append ..
    have poisedBefore := poised.course first
    obtain ⟨known, quiet⟩ := (poisedBefore.stride (x := .move (.turn k)) rfl).course_known concludes.known rest
    rw [← turned] at known
    refine ⟨fun unknown => (by cases known.symm.trans unknown), fun j' known' => ?_⟩
    cases known.symm.trans known'
    refine ⟨fun more proper => ?_, before, k, later, q, id, r, rfl, poisedBefore.unwelcomed still, ?_, ?_,
      concludes, ?_, early, quiet⟩
    · exact (poised'.course proper).welcomed (poised'.course_known known proper).1
    · obtain ⟨deadline, attempt⟩ := concludes.attempt
      have same : (begun.course before).link.client.config = config :=
        (begun.continues_course before).client.config
      exact same ▸ poisedBefore.query _ _ _ attempt
    · obtain ⟨deadline, attempt⟩ := concludes.attempt
      exact poised.sends none first attempt rfl
    · rw [accepted_append]
      exact congrArg (begun.accepted before ++ ·) (congrArg (· ++ _) concludes.said)

/-- Two calls greet a server that says nothing, and the attempt of the first runs out of time. -/
def silence : List Stride :=
  [.move (.begin (.greet .fresh)), .move (.begin (.greet .fresh))] ++ List.replicate 5 (.move (.turn 0)) ++
    [.move (.turn 1), .move (.pass 9), .move (.turn 0), .move (.turn 0)]

/-- The second tries again, and the server answers. -/
def answered : List Stride :=
  silence ++ .move (.turn 0) :: List.replicate 5 (.move (.turn 1)) ++
    [.move (.act (.emit (Peer.wire (.number 2) [("result", Shape.silent)]))),
      .move (.act (.hand .reader)), .move (.act (.hand .reader))]

/-- The attempt succeeds, and a third call comes. -/
def greetedAgain : List Stride := answered ++ [.move (.turn 1), .move (.begin (.greet .fresh))]

theorem known_greetedAgain {s : Session}
    (same : (start 0 "x" ⟨⟨"/"⟩, [], none, 9⟩ (.ofScript .empty) none).course answered = s) :
    (s.course [.move (.turn 1), .move (.begin (.greet .fresh))]).link.client.greeting = some Shape.silent := by
  obtain ⟨params, call⟩ : ∃ params, s.calls 1 =
      some (.greet (.asking ⟨"initialize", params, .initializeResult⟩ (.waiting 2 18))) := by
    subst same
    exact ⟨_, rfl⟩
  have read : (s.link.client.isQueueOpen,
      s.link.client.arrived.map fun r => (r.id, r.result.map Shape.isSilent, r.error.isNone)) =
        (true, [(.number 2, some true, true)]) := by
    subst same
    decide +kernel
  obtain ⟨isOpen, responses⟩ := Prod.mk.inj read
  have greets : s.link.client.greet s.now
      (.asking ⟨"initialize", params, .initializeResult⟩ (.waiting 2 18)) =
        (s.link.client.greeted Shape.silent, .done (.ok Shape.silent)) :=
    Client.greet_answered (Client.arrived_silent responses) isOpen Shape.read_silent
  have turned : (s.stride (.move (.turn 1))).link.client = s.link.client.greeted Shape.silent := by
    rw [(stride_greet call).1, greets]
  exact congrArg Client.greeting turned

theorem third_greetedAgain {s : Session}
    (same : (start 0 "x" ⟨⟨"/"⟩, [], none, 9⟩ (.ofScript .empty) none).course answered = s) :
    (s.course [.move (.turn 1), .move (.begin (.greet .fresh))]).calls 2 = some (.greet .fresh) := by
  have begins (s : Session) : (s.stride (.move (.begin (.greet .fresh)))).calls s.tickets =
      some (.greet .fresh) := by
    simp [stride, next, ClientCall.isFresh]
  have two : (s.stride (.move (.turn 1))).tickets = 2 := by
    subst same
    decide +kernel
  exact two ▸ begins (s.stride (.move (.turn 1)))

theorem late_silence {s : Session}
    (same : (start 0 "x" ⟨⟨"/"⟩, [], none, 9⟩ (.ofScript .empty) none).course silence = s) :
    s.link.client.greeting = none ∧ s.Fails 0 (.timeout 0) := by
  obtain ⟨params, call⟩ : ∃ params, s.calls 0 =
      some (.greet (.asking ⟨"initialize", params, .initializeResult⟩ (.withdrawn 1))) := by
    subst same
    exact ⟨_, rfl⟩
  have timeout : s.link.client.config.timeout = 9 := by
    subst same
    decide +kernel
  have late := Fails.late call
  rw [timeout] at late
  refine ⟨?_, late⟩
  subst same
  exact Option.isNone_iff_eq_none.mp (by decide +kernel)

/-- A call that gets no response fails when its time is over, the next tries again and succeeds, and a third is
given the same answer. -/
theorem handshake_succeeds_at_second :
    (∃ s, (start 0 "x" ⟨⟨"/"⟩, [], none, 9⟩ (.ofScript .empty) none).course silence = s ∧
      s.Unwelcomed ∧ s.Fails 0 (.timeout 0)) ∧
    ∃ s, (start 0 "x" ⟨⟨"/"⟩, [], none, 9⟩ (.ofScript .empty) none).course greetedAgain = s ∧
      s.Welcomed Shape.silent ∧ s.Returns 2 (.ok Shape.silent) := by
  constructor
  · obtain ⟨unwelcomed, -⟩ :=
      handshake_succeeds_once 0 "x" ⟨⟨"/"⟩, [], none, 9⟩ (.ofScript .empty) none silence (by decide +kernel)
    generalize same : (start 0 "x" ⟨⟨"/"⟩, [], none, 9⟩ (.ofScript .empty) none).course silence = s
      at unwelcomed
    obtain ⟨unknown, fails⟩ := late_silence same
    exact ⟨s, rfl, (unwelcomed unknown).1, fails⟩
  · obtain ⟨-, welcomed⟩ :=
      handshake_succeeds_once 0 "x" ⟨⟨"/"⟩, [], none, 9⟩ (.ofScript .empty) none greetedAgain (by decide +kernel)
    obtain ⟨t, before⟩ : ∃ t, (start 0 "x" ⟨⟨"/"⟩, [], none, 9⟩ (.ofScript .empty) none).course answered = t :=
      ⟨_, rfl⟩
    have whole : (start 0 "x" ⟨⟨"/"⟩, [], none, 9⟩ (.ofScript .empty) none).course greetedAgain =
        t.course [.move (.turn 1), .move (.begin (.greet .fresh))] := by
      rw [greetedAgain, course_append, before]
    rw [whole] at welcomed
    obtain ⟨lasts, -⟩ := welcomed _ (known_greetedAgain before)
    have known := lasts [] (by rintro x ⟨⟩)
    exact ⟨_, whole, known, known.returns 2 .fresh (third_greetedAgain before)⟩

end Session

end LanguageHost
