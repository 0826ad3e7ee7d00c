import LanguageHost.Proofs.Session.Run

/-!
What the log of a run tells of each query, by how far it has come: it has at most one number, is queued
under that number, and returns at most once.
-/
namespace LanguageHost

namespace Event

/-- Each event of a log stands in a relation to what had happened before. -/
def Always (P : Event → List Event → Prop) (log : List Event) : Prop :=
  ∀ e older, (e :: older) <:+ log → P e older

variable {P : Event → List Event → Prop} {log : List Event}

theorem always_nil : Always P [] := by
  intro e older ends
  simp at ends

theorem Always.cons {e : Event} (h : Always P log) (first : P e log) : Always P (e :: log) := by
  intro e' older ends
  rcases List.suffix_cons_iff.mp ends with same | ends
  · cases same
    exact first
  · exact h e' older ends

theorem Always.append {es : List Event} (h : Always P log) (idle : ∀ e ∈ es, ∀ older, P e older) :
    Always P (es ++ log) := by
  induction es with
  | nil => exact h
  | cons e es ih =>
    have rest := ih fun e' there => idle e' (List.mem_cons_of_mem e there)
    exact rest.cons (idle e List.mem_cons_self _)

theorem Always.mem {e : Event} (h : Always P log) (there : e ∈ log) :
    ∃ older, (e :: older) <:+ log ∧ P e older := by
  obtain ⟨later, older, rfl⟩ := List.append_of_mem there
  exact ⟨older, ⟨later, rfl⟩, h e older ⟨later, rfl⟩⟩

theorem plain_others {es : List Event} (plain : ∀ e ∈ es, e.IsPlain) (k : Nat) :
    ∀ e ∈ es, e.caller? ≠ some k := by
  intro e there own
  rw [plain e there] at own
  cases own

theorem caller_of_mem_ofTurn {k : Nat} {turn : Turn AskStage Answer} {e : Event}
    (there : e ∈ ofTurn k turn) : e.caller? = some k := by
  unfold ofTurn at there
  split at there
  · cases List.mem_singleton.mp there
    rfl
  · cases List.mem_singleton.mp there
    rfl
  · cases there

/-- What the log tells of the query of a call. -/
def Told (log : List Event) (k : Nat) : ClientCall.Phase → Prop
  | .ahead => ∀ e ∈ log, e.caller? ≠ some k
  | .asking q st =>
    (∀ a, .returned k a ∉ log) ∧ (∀ id, .numbered k id ∈ log ↔ st.id? = some id) ∧
      ∀ id, st.sent? = some id → .queued (some k) (q.request id) ∈ log
  | .behind => ∀ id id', .numbered k id ∈ log → .numbered k id' ∈ log → id = id'

theorem mem_of_append {es : List Event} {e : Event} {k : Nat} (there : e ∈ es ++ log)
    (own : e.caller? = some k) (others : ∀ e ∈ es, e.caller? ≠ some k) : e ∈ log := by
  rcases List.mem_append.mp there with new | old
  · exact absurd own (others e new)
  · exact old

/-- What other calls do says nothing of a query. -/
theorem Told.append {es : List Event} {k : Nat} {p : ClientCall.Phase} (h : Told log k p)
    (others : ∀ e ∈ es, e.caller? ≠ some k) : Told (es ++ log) k p := by
  cases p with
  | ahead =>
    intro e there own
    exact h e (mem_of_append there own others) own
  | asking q st =>
    obtain ⟨unreturned, numbers, queued⟩ := h
    refine ⟨fun a there => unreturned a (mem_of_append there rfl others), fun id => ?_,
      fun id sent => List.mem_append_right _ (queued id sent)⟩
    constructor
    · intro there
      exact (numbers id).mp (mem_of_append there rfl others)
    · intro own
      exact List.mem_append_right _ ((numbers id).mpr own)
  | behind =>
    intro id id' there there'
    exact h id id' (mem_of_append there rfl others) (mem_of_append there' rfl others)

theorem told_fresh {k : Nat} (silent : ∀ e ∈ log, e.caller? ≠ some k) (q : Query) :
    Told log k (.asking q .fresh) := by
  refine ⟨fun a there => silent _ there rfl, fun id => ?_, nofun⟩
  exact ⟨fun there => absurd rfl (silent _ there), nofun⟩

/-- A step of a query tells what belongs to its next stage. -/
theorem Told.asked {k : Nat} {q : Query} {now : Nat} {c c' : Client} {st : AskStage}
    {turn : Turn AskStage Answer} (h : Told log k (.asking q st)) (asked : c.Asked q now st c' turn) :
    Told (ofTurn k turn ++ (queue (some k) c c' ++ log)) k (.after q st turn) := by
  have h : Told (queue (some k) c c' ++ log) k (.asking q st) :=
    h.append (plain_others (plain_queue _ _ _) k)
  obtain ⟨unreturned, numbers, queued⟩ := h
  -- a return leaves the number, and nothing else is asked of a call that is behind its query
  have returns (a : Answer) : Told (.returned k a :: (queue (some k) c c' ++ log)) k .behind := by
    intro id id' there there'
    have first := (numbers id).mp (by simpa using there)
    have second := (numbers id').mp (by simpa using there')
    exact Option.some.inj (first.symm.trans second)
  cases asked with
  | barred | left | answered | lost | told | untold => exact returns _
  | admitted | expired | waits | withdrawn | refused | registered => exact ⟨unreturned, numbers, queued⟩
  | numbered =>
    refine ⟨fun a => by simpa [ofTurn] using unreturned a, fun id => ?_, nofun⟩
    have silent : .numbered k id ∉ queue (some k) c { c with nextId := c.nextId + 1 } ++ log :=
      fun there => by cases (numbers id).mp there
    simp [ofTurn, silent, AskStage.id?, eq_comm]
  | sent id =>
    refine ⟨unreturned, numbers, fun id' sent => ?_⟩
    cases sent
    simp [ofTurn, queue_append]

/-- A query returns once, and from a response only to the request that it has queued. -/
def Founded : Event → List Event → Prop
  | .returned k a, older => (∀ a', .returned k a' ∉ older) ∧
    match a with
    | .response r => ∃ (id : Int32) (q : Query), r.id = .number id ∧ .numbered k id ∈ older ∧
        .queued (some k) (q.request id) ∈ older
    | .late => ∃ (id : Int32) (q : Query), .numbered k id ∈ older ∧
        .queued (some k) (q.request id) ∈ older
    | .gone => True
  | _, _ => True

theorem founded_plain {e : Event} (plain : e.IsPlain) (older : List Event) : Founded e older := by
  unfold Founded
  split
  · cases plain
  · trivial

theorem Always.founded {k : Nat} {q : Query} {now : Nat} {c c' : Client} {st : AskStage}
    {turn : Turn AskStage Answer} (h : Always Founded log) (told : Told log k (.asking q st))
    (asked : c.Asked q now st c' turn) :
    Always Founded (ofTurn k turn ++ (queue (some k) c c' ++ log)) := by
  have h : Always Founded (queue (some k) c c' ++ log) :=
    h.append fun e there => founded_plain (plain_queue _ _ _ e there)
  have told : Told (queue (some k) c c' ++ log) k (.asking q st) :=
    told.append (plain_others (plain_queue _ _ _) k)
  obtain ⟨unreturned, numbers, queued⟩ := told
  cases asked with
  | barred | left | lost => exact h.cons ⟨unreturned, trivial⟩
  | answered id deadline r there own =>
    exact h.cons ⟨unreturned, id, q, own, (numbers id).mpr rfl, queued id rfl⟩
  | told id | untold id => exact h.cons ⟨unreturned, id, q, (numbers id).mpr rfl, queued id rfl⟩
  | numbered => exact h.cons (by simp [Founded])
  | admitted | registered | sent | refused | expired | waits | withdrawn => exact h

end Event

namespace Session

/-- What holds of the log of every run, given the number of calls and how far each has come. -/
structure Chronicle (tickets : Nat) (phase : Nat → ClientCall.Phase) (log : List Event) : Prop where
  begun : ∀ k, tickets ≤ k → phase k = .behind ∧ ∀ e ∈ log, e.caller? ≠ some k
  told : ∀ k, Event.Told log k (phase k)
  founded : Event.Always Event.Founded log

namespace Chronicle

variable {tickets : Nat} {phase : Nat → ClientCall.Phase} {log : List Event}

theorem start : Chronicle 0 (fun _ => .behind) [] := by
  constructor
  · exact fun k _ => ⟨rfl, nofun⟩
  · intro k id id' there
    cases there
  · exact Event.always_nil

theorem append {es : List Event} (h : Chronicle tickets phase log) (plain : ∀ e ∈ es, e.IsPlain) :
    Chronicle tickets phase (es ++ log) := by
  constructor
  · intro k late
    obtain ⟨behind, silent⟩ := h.begun k late
    refine ⟨behind, fun e there own => ?_⟩
    exact silent e (Event.mem_of_append there own (Event.plain_others plain k)) own
  · exact fun k => (h.told k).append (Event.plain_others plain k)
  · exact h.founded.append fun e there => Event.founded_plain (plain e there)

theorem begin {p : ClientCall.Phase} (h : Chronicle tickets phase log)
    (first : p = .ahead ∨ ∃ q, p = .asking q .fresh) :
    Chronicle (tickets + 1) (Function.update phase tickets p) log := by
  have silent := (h.begun tickets (Nat.le_refl _)).2
  constructor
  · intro k late
    have other : k ≠ tickets := by omega
    rw [Function.update_of_ne other]
    exact h.begun k (by omega)
  · intro k
    by_cases same : k = tickets
    · subst same
      rw [Function.update_self]
      rcases first with rfl | ⟨q, rfl⟩
      · exact silent
      · exact Event.told_fresh silent q
    · rw [Function.update_of_ne same]
      exact h.told k
  · exact h.founded

theorem shift {k : Nat} {p : ClientCall.Phase} (h : Chronicle tickets phase log)
    (onward : phase k = .ahead ∧ (p = .ahead ∨ p = .behind ∨ ∃ q, p = .asking q .fresh) ∨
      phase k = .behind ∧ p = .behind) :
    Chronicle tickets (Function.update phase k p) log := by
  constructor
  · intro j late
    have known := h.begun j late
    by_cases same : j = k
    · subst same
      rw [Function.update_self]
      rcases onward with ⟨ahead, -⟩ | ⟨-, rfl⟩
      · rw [known.1] at ahead
        cases ahead
      · exact ⟨rfl, known.2⟩
    · rw [Function.update_of_ne same]
      exact known
  · intro j
    by_cases same : j = k
    · subst same
      rw [Function.update_self]
      have told := h.told j
      rcases onward with ⟨ahead, rfl | rfl | ⟨q, rfl⟩⟩ | ⟨behind, rfl⟩
      · rwa [ahead] at told
      · rw [ahead] at told
        intro id id' there
        exact absurd rfl (told _ there)
      · rw [ahead] at told
        exact Event.told_fresh told q
      · rwa [behind] at told
    · rw [Function.update_of_ne same]
      exact h.told j
  · exact h.founded

theorem asked {k : Nat} {q : Query} {now : Nat} {c c' : Client} {st : AskStage}
    {turn : Turn AskStage Answer} (h : Chronicle tickets phase log) (before : phase k = .asking q st)
    (asked : c.Asked q now st c' turn) :
    Chronicle tickets (Function.update phase k (.after q st turn))
      (Event.ofTurn k turn ++ (Event.queue (some k) c c' ++ log)) := by
  have told : Event.Told log k (.asking q st) := before ▸ h.told k
  have others {j : Nat} (other : j ≠ k) :
      ∀ e ∈ Event.ofTurn k turn ++ Event.queue (some k) c c', e.caller? ≠ some j := by
    intro e there own
    rcases List.mem_append.mp there with turned | queued
    · exact other (Option.some.inj (own.symm.trans (Event.caller_of_mem_ofTurn turned)))
    · exact Event.plain_others (Event.plain_queue _ _ _) j e queued own
  constructor
  · intro j late
    have known := h.begun j late
    have other : j ≠ k := by
      rintro rfl
      rw [before] at known
      cases known.1
    rw [Function.update_of_ne other, ← List.append_assoc]
    exact ⟨known.1, fun e there own => known.2 e (Event.mem_of_append there own (others other)) own⟩
  · intro j
    by_cases same : j = k
    · subst same
      rw [Function.update_self]
      exact told.asked asked
    · rw [Function.update_of_ne same, ← List.append_assoc]
      exact (h.told j).append (others same)
  · exact h.founded.founded told asked

theorem step {s s' : Session} (moved : s.Step s') (h : Chronicle s.tickets s.phase s.log) :
    Chronicle s'.tickets s'.phase s'.log := by
  cases moved with
  | begins p first link tickets phase log =>
    rw [tickets, phase, log]
    exact h.begin first
  | stirs uri? link tickets phase es plain log =>
    rw [tickets, phase, log]
    exact h.append plain
  | shifts k p onward client tickets phase es plain log =>
    rw [tickets, phase, log]
    exact (h.shift onward).append plain
  | asks k q st c turn before asked client tickets phase es plain log =>
    rw [tickets, phase, log]
    exact (h.asked before asked).append plain

end Chronicle

end Session

end LanguageHost
