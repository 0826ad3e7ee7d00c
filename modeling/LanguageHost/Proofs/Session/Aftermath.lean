import LanguageHost.Proofs.Session.Responses

/-!
What becomes of the queries when the server's output ends. The reader gives up everybody who is waited for
and drops the connection, and only later does the writer notice. A query that found the connection there and
was not waited for yet misses the first and is not stopped by the second: if the writer has not noticed by
the time it sends, it waits its whole time.
-/
namespace LanguageHost

namespace AskStage

/-- How many more steps a query can take. -/
def rank : AskStage → Nat
  | .fresh => 6
  | .admitted => 5
  | .numbered _ => 4
  | .registered _ => 3
  | .waiting _ _ => 2
  | .expired _ => 1
  | .refused _ | .withdrawn _ => 0

/-- The connection was there, and nobody waits for the query yet. -/
def IsEntering : AskStage → Prop
  | .admitted | .numbered _ => True
  | _ => False

/-- The time of the query is over. -/
def IsOverdue : AskStage → Prop
  | .expired _ | .withdrawn _ => True
  | _ => False

theorem IsEntering.listed? {st : AskStage} (h : st.IsEntering) : st.listed? = none := by
  cases st with
  | admitted | numbered => rfl
  | _ => cases h

end AskStage

theorem Client.Asked.rank_lt {q : Query} {now : Nat} {c c' : Client} {st st' : AskStage}
    (h : c.Asked q now st c' (.go st')) : st'.rank < st.rank := by
  cases h with
  | _ => exact Nat.lt_of_sub_eq_succ rfl

theorem Client.Continues.silent {c c' : Client} (h : c.Continues c') (silent : c.isReading = false) :
    c'.isReading = false := by
  rw [← Bool.not_eq_true] at silent ⊢
  exact fun reads => silent (h.reading reads)

/-- The reader's last step gives everybody up and drops the connection. -/
theorem Link.client_of_read_ends {l l' : Link} (reading : l.client.isReading = true) (h : l.Reads l')
    (ended : l'.client.isReading = false) :
    l'.client = { l.client.release.disconnect with isReading := false } := by
  cases h with
  | ends => rfl
  | takes => exact absurd (reading.symm.trans ended) nofun
  | routes m d =>
    -- a message leaves the reader where it is
    refine absurd (reading.symm.trans (Eq.trans ?_ ended)) nofun
    obtain ⟨r, -, accepted⟩ | ⟨-, ⟨-, left⟩ | ⟨-, entered⟩⟩ := route_cases { l with decoder := d } m
    · rw [accepted]
      unfold Client.accept
      split <;> rfl
    · rw [left]
    · rw [entered]

namespace Session

/-- The query of a call has found the connection there, and nobody waits for it yet. -/
def Entering (s : Session) (k : Nat) : Prop := ∃ q st, s.phase k = .asking q st ∧ st.IsEntering

def Overdue (s : Session) (k : Nat) : Prop := ∃ q st, s.phase k = .asking q st ∧ st.IsOverdue

/-- How the query of a call may end after a time `e`: the connection is gone, or the response had come by
then, or the time was over by then. -/
inductive Released (e : Session) (k : Nat) : Answer → Prop
  | gone : Released e k .gone
  | came (r : Response) (there : r ∈ e.link.client.arrived) : Released e k (.response r)
  | late (overdue : e.Overdue k) : Released e k .late

/-- Later on after the end of the output at `e`: of the queries under way just those are waited for that
were entering then. -/
structure Aftermath (e s : Session) : Prop where
  silent : s.link.client.isReading = false
  closed : s.link.client.isClosed = true
  arrived : s.link.client.arrived ⊆ e.link.client.arrived
  entering : ∀ k, s.Entering k → e.Entering k
  overdue : ∀ k, s.Overdue k → e.Overdue k ∨ e.Entering k
  waited : ∀ k q st id, s.phase k = .asking q st → st.listed? = some id →
    (.number id ∈ s.link.client.pending ↔ e.Entering k)

namespace Aftermath
variable {e s s' : Session}

theorem start (silent : e.link.client.isReading = false) (closed : e.link.client.isClosed = true)
    (pending : e.link.client.pending = []) : e.Aftermath e := by
  refine ⟨silent, closed, List.Subset.refl _, fun _ => id, fun _ => .inl, ?_⟩
  intro k q st id stage listed
  rw [pending]
  refine ⟨nofun, ?_⟩
  rintro ⟨q', st', stage', entering⟩
  cases stage.symm.trans stage'
  exact absurd (entering.listed?.symm.trans listed) nofun

/-- Other calls keep their stages when one has taken a step. -/
theorem phase_of_update {k j : Nat} {p : ClientCall.Phase} (phase : s'.phase = Function.update s.phase k p)
    {q : Query} {st : AskStage} (stage : s'.phase j = .asking q st) :
    j = k ∧ p = .asking q st ∨ j ≠ k ∧ s.phase j = .asking q st := by
  by_cases same : j = k
  · subst same
    rw [phase, Function.update_self] at stage
    exact .inl ⟨rfl, stage⟩
  · rw [phase, Function.update_of_ne same] at stage
    exact .inr ⟨same, stage⟩

/-- A step that is no query's. -/
theorem idle (h : e.Aftermath s) (client : s.link.client.Continues s'.link.client)
    (pending : s'.link.client.pending = s.link.client.pending)
    (arrived : s'.link.client.arrived = s.link.client.arrived)
    (phase : ∀ k q st, s'.phase k = .asking q st → st ≠ .fresh → s.phase k = .asking q st) :
    e.Aftermath s' := by
  refine ⟨client.silent h.silent, client.closed h.closed, arrived ▸ h.arrived, ?_, ?_, ?_⟩
  · rintro k ⟨q, st, stage, entering⟩
    refine h.entering k ⟨q, st, phase k q st stage ?_, entering⟩
    rintro rfl
    cases entering
  · rintro k ⟨q, st, stage, overdue⟩
    refine h.overdue k ⟨q, st, phase k q st stage ?_, overdue⟩
    rintro rfl
    cases overdue
  · intro k q st id stage listed
    rw [pending]
    refine h.waited k q st id (phase k q st stage ?_) listed
    rintro rfl
    cases listed

/-- A step of one call, by what it does to whoever is waited for. -/
theorem update (h : e.Aftermath s) {k : Nat} {p : ClientCall.Phase}
    (client : s.link.client.Continues s'.link.client)
    (arrived : s'.link.client.arrived ⊆ s.link.client.arrived)
    (phase : s'.phase = Function.update s.phase k p)
    (others : ∀ j q st id, j ≠ k → s.phase j = .asking q st → st.listed? = some id →
      (.number id ∈ s'.link.client.pending ↔ .number id ∈ s.link.client.pending))
    (own : ∀ q st, p = .asking q st → (st.IsEntering → e.Entering k) ∧
      (st.IsOverdue → e.Overdue k ∨ e.Entering k) ∧
      ∀ id, st.listed? = some id → (.number id ∈ s'.link.client.pending ↔ e.Entering k)) :
    e.Aftermath s' := by
  refine ⟨client.silent h.silent, client.closed h.closed, List.Subset.trans arrived h.arrived, ?_, ?_, ?_⟩
  · rintro j ⟨q, st, stage, entering⟩
    rcases phase_of_update phase stage with ⟨rfl, stage⟩ | ⟨-, stage⟩
    · exact (own q st stage).1 entering
    · exact h.entering j ⟨q, st, stage, entering⟩
  · rintro j ⟨q, st, stage, overdue⟩
    rcases phase_of_update phase stage with ⟨rfl, stage⟩ | ⟨-, stage⟩
    · exact (own q st stage).2.1 overdue
    · exact h.overdue j ⟨q, st, stage, overdue⟩
  · intro j q st id stage listed
    rcases phase_of_update phase stage with ⟨rfl, stage⟩ | ⟨other, stage⟩
    · exact (own q st stage).2.2 id listed
    · exact (others j q st id other stage listed).trans (h.waited j q st id stage listed)

theorem asked (h : e.Aftermath s) (sound : s.Sound) (few : (numbersOf s.log).length < 2 ^ 32) {k : Nat}
    {q : Query} {st : AskStage} {c : Client} {turn : Turn AskStage Answer} (before : s.phase k = .asking q st)
    (asked : s.link.client.Asked q s.now st c turn) (client : c.Beside s'.link.client)
    (phase : s'.phase = Function.update s.phase k (.after q st turn)) : e.Aftermath s' := by
  have told := sound.chronicle.told k
  rw [before] at told
  -- the number of a query is nobody else's
  have apart {id id' : Int32} {j : Nat} {q' : Query} {st' : AskStage} (own : st.id? = some id) (other : j ≠ k)
      (stage : s.phase j = .asking q' st') (listed : st'.listed? = some id') :
      RequestId.number id' ≠ .number id := by
    rintro ⟨⟩
    have told' := sound.chronicle.told j
    rw [stage] at told'
    exact other (sound.numbering.unique few ((told'.2.1 _).mpr (AskStage.id?_of_listed? listed))
      ((told.2.1 _).mpr own))
  have continues := asked.continues.trans client.toContinues
  have arrived : s'.link.client.arrived = c.arrived := client.arrived
  have pending : s'.link.client.pending = c.pending := client.pending
  cases asked with
  | barred | lost | told | untold =>
    exact h.update continues (arrived ▸ List.Subset.refl _) phase (fun _ _ _ _ _ _ _ => pending ▸ Iff.rfl)
      (by rintro _ _ ⟨⟩)
  | answered id deadline r =>
    exact h.update continues (arrived ▸ List.filter_subset_self _) phase
      (fun _ _ _ _ _ _ _ => pending ▸ Iff.rfl) (by rintro _ _ ⟨⟩)
  | left id =>
    refine h.update continues (arrived ▸ List.filter_subset_self _) phase ?_ (by rintro _ _ ⟨⟩)
    intro j q' st' id' other stage listed
    rw [pending]
    simp [Client.withdraw, Client.forget, apart rfl other stage listed]
  | admitted connected => cases h.closed.symm.trans connected
  | numbered =>
    refine h.update continues (arrived ▸ List.Subset.refl _) phase (fun _ _ _ _ _ _ _ => pending ▸ Iff.rfl) ?_
    rintro _ _ ⟨⟩
    exact ⟨fun _ => h.entering k ⟨q, _, before, trivial⟩, False.elim, fun _ listed => (by cases listed)⟩
  | registered id =>
    refine h.update continues (arrived ▸ List.Subset.refl _) phase ?_ ?_
    · intro j q' st' id' other stage listed
      rw [pending]
      simp [Client.register, apart rfl other stage listed]
    · rintro _ _ ⟨⟩
      refine ⟨False.elim, False.elim, ?_⟩
      rintro _ ⟨⟩
      rw [pending]
      exact iff_of_true List.mem_cons_self (h.entering k ⟨q, _, before, trivial⟩)
  | sent id | refused id | waits id =>
    refine h.update continues (arrived ▸ List.Subset.refl _) phase (fun _ _ _ _ _ _ _ => pending ▸ Iff.rfl) ?_
    rintro _ _ ⟨⟩
    exact ⟨False.elim, False.elim, fun id listed => pending ▸ h.waited k q _ id before listed⟩
  | expired id deadline there =>
    refine h.update continues (arrived ▸ List.Subset.refl _) phase (fun _ _ _ _ _ _ _ => pending ▸ Iff.rfl) ?_
    rintro _ _ ⟨⟩
    exact ⟨False.elim, fun _ => .inr ((h.waited k q _ id before rfl).mp there),
      fun id listed => pending ▸ h.waited k q _ id before listed⟩
  | withdrawn id =>
    refine h.update continues (arrived ▸ List.filter_subset_self _) phase ?_ ?_
    · intro j q' st' id' other stage listed
      rw [pending]
      simp [Client.withdraw, Client.forget, apart rfl other stage listed]
    · rintro _ _ ⟨⟩
      exact ⟨False.elim, fun _ => h.overdue k ⟨q, _, before, trivial⟩, fun _ listed => (by cases listed)⟩

theorem step (h : e.Aftermath s) (sound : s.Sound) (few : (numbersOf s.log).length < 2 ^ 32)
    (moved : s.Step s') : e.Aftermath s' := by
  cases moved with
  | begins p first link tickets phase =>
    refine h.idle (link ▸ .refl _) (by rw [link]) (by rw [link]) fun k q st stage later => ?_
    rcases phase_of_update phase stage with ⟨rfl, rfl⟩ | ⟨-, stage⟩
    · rcases first with ahead | ⟨q', fresh⟩
      · cases ahead
      · cases fresh
        exact absurd rfl later
    · exact stage
  | stirs uri? link tickets phase =>
    obtain ⟨c, stirred, aside⟩ := link.client
    have continues := stirred.continues.trans aside.toContinues
    cases stirred with
    | accepts r reading => exact absurd (h.silent.symm.trans reading) nofun
    | releases reading => exact absurd (h.silent.symm.trans reading) nofun
    | still => exact h.idle continues aside.pending aside.arrived fun k q st stage _ => phase ▸ stage
    | reopens uri => exact h.idle continues aside.pending aside.arrived fun k q st stage _ => phase ▸ stage
  | shifts k p onward client tickets phase =>
    refine h.idle client.toContinues client.pending client.arrived fun j q st stage later => ?_
    rcases phase_of_update phase stage with ⟨rfl, rfl⟩ | ⟨-, stage⟩
    · rcases onward with ⟨-, ahead | behind | ⟨q', fresh⟩⟩ | ⟨-, behind⟩
      · cases ahead
      · cases behind
      · cases fresh
        exact absurd rfl later
      · cases behind
    · exact stage
  | asks k q st c turn before asked client tickets phase => exact h.asked sound few before asked client phase

theorem run (sound : s.Sound) (h : e.Aftermath s) (moves : List Move)
    (few : (numbersOf (s.run moves).log).length < 2 ^ 32) : e.Aftermath (s.run moves) := by
  have kept : (s.run moves).Sound ∧
      ((numbersOf (s.run moves).log).length < 2 ^ 32 → e.Aftermath (s.run moves)) := by
    refine run_keeps (P := fun s => s.Sound ∧ ((numbersOf s.log).length < 2 ^ 32 → e.Aftermath s)) ?_
      ⟨sound, fun _ => h⟩ moves
    rintro s s' moved ⟨sound, after⟩
    refine ⟨sound.step moved, fun few => ?_⟩
    have before := Nat.lt_of_le_of_lt moved.numbersOf_length_le few
    exact (after before).step sound before moved
  exact kept.2 few

/-- Nobody waits but a query that was entering, and every other one ends as it should. -/
theorem turn (h : e.Aftermath s) {k : Nat} {q : Query} {st : AskStage} (stage : s.phase k = .asking q st)
    (out : ¬ e.Entering k) {c : Client} {turn : Turn AskStage Answer}
    (asked : s.link.client.Asked q s.now st c turn) :
    (∀ d, turn ≠ .wait d) ∧ ∀ a, turn = .done a → e.Released k a := by
  cases asked with
  | admitted | numbered | registered | sent | refused | expired | withdrawn => exact ⟨nofun, nofun⟩
  | barred | left | lost =>
    refine ⟨nofun, ?_⟩
    rintro _ ⟨⟩
    exact .gone
  | answered id deadline r there =>
    refine ⟨nofun, ?_⟩
    rintro _ ⟨⟩
    exact .came r (h.arrived there)
  | waits id deadline there => exact absurd ((h.waited k q _ id stage rfl).mp there) out
  | told | untold =>
    refine ⟨nofun, ?_⟩
    rintro _ ⟨⟩
    exact .late ((h.overdue k ⟨q, _, stage, trivial⟩).resolve_right out)

/-- A query that was entering and has been sent waits its whole time. -/
theorem waits (h : e.Aftermath s) (routed : s.Routed) {k : Nat} {q : Query} {id : Int32} {deadline : Nat}
    (stage : s.phase k = .asking q (.waiting id deadline)) (entering : e.Entering k) :
    (s.link.client.exchange q s.now (.waiting id deadline)).2 =
      if deadline ≤ s.now then .go (.expired id) else .wait (some deadline) := by
  have there : .number id ∈ s.link.client.pending := (h.waited k q _ id stage rfl).mpr entering
  have missing : s.link.client.take? (.number id) = none := by
    refine Option.map_eq_none_iff.mpr (List.find?_eq_none.mpr fun r come => ?_)
    have own : r.id ≠ .number id := fun same => (routed.arrived r come).1 (same ▸ there)
    simpa using own
  simp only [Client.exchange, missing, there, not_true, if_false]
  split
  · rfl
  · rfl

theorem pending (h : e.Aftermath s) (routed : s.Routed)
    (returned : ∀ k, e.Entering k → s.phase k = .behind) : s.link.client.pending = [] := by
  refine List.eq_nil_iff_forall_not_mem.mpr fun x there => ?_
  obtain ⟨k, q, st, id, stage, listed, rfl⟩ := routed.pending x there
  have behind := returned k ((h.waited k q st id stage listed).mp there)
  cases behind.symm.trans stage

end Aftermath

/-- The output of the server ends in one step of the reader, whatever else is under way, and from then on
nobody is waited for. However the run goes on, a query that was not entering at that moment is never made to
wait: it returns after as many turns of its own as its stage is from the end, and is told that the
connection is gone, unless its response had come or its time was over by then. A query that was entering is
refused if the writer has noticed when it sends; if not it waits its whole time. Once all of these have
returned nobody is waited for again. -/
theorem output_end_releases {s : Session} (reached : s.Reached) (reading : s.link.client.isReading = true) :
    let e := s.next (.act (.hand .reader))
    e.link.client.isReading = false → ∀ moves : List Move,
    let t := e.run moves
    (numbersOf t.log).length < 2 ^ 32 →
    e.link.client.pending = [] ∧
    (∀ k q st, t.phase k = .asking q st → ¬ e.Entering k →
      (∀ d, (t.link.client.exchange q t.now st).2 ≠ .wait d) ∧
      (∀ st', (t.link.client.exchange q t.now st).2 = .go st' → st'.rank < st.rank) ∧
      ∀ a, (t.link.client.exchange q t.now st).2 = .done a → e.Released k a) ∧
    (∀ k q id, t.phase k = .asking q (.registered id) →
      (t.link.client.exchange q t.now (.registered id)).2 =
        if t.link.client.isQueueOpen then .go (.waiting id (t.now + t.link.client.config.timeout))
        else .go (.refused id)) ∧
    (∀ k q id deadline, t.phase k = .asking q (.waiting id deadline) → e.Entering k →
      (t.link.client.exchange q t.now (.waiting id deadline)).2 =
        if deadline ≤ t.now then .go (.expired id) else .wait (some deadline)) ∧
    ((∀ k, e.Entering k → t.phase k = .behind) → t.link.client.pending = []) := by
  intro e ended moves t few
  have client : e.link.client = { s.link.client.release.disconnect with isReading := false } := by
    have act : e.link = (s.link.act (.hand .reader)).1 := rfl
    rw [act] at ended ⊢
    simp only [Link.act, Link.step] at ended ⊢
    cases moved : s.link.read with
    | none =>
      rw [moved] at ended
      cases reading.symm.trans ended
    | some l =>
      rw [moved] at ended
      exact Link.client_of_read_ends reading (Link.read_cases moved).2 ended
  have sound : e.Sound := reached.sound.step (s.step_next _)
  have begun : e.Aftermath e := .start ended (client ▸ rfl) (client ▸ rfl)
  have after : e.Aftermath t := begun.run sound moves few
  have routed : t.Routed := ((run_keeps Sound.step sound moves).routed few)
  refine ⟨client ▸ rfl, fun k q st stage out => ?_, fun k q id _ => ?_,
    fun k q id deadline stage entering => after.waits routed stage entering, after.pending routed⟩
  · have asked := Client.exchange_asked q t.now t.link.client st
    obtain ⟨unwaiting, released⟩ := after.turn stage out asked
    refine ⟨unwaiting, fun st' goes => ?_, released⟩
    rw [goes] at asked
    exact asked.rank_lt
  · cases isOpen : t.link.client.isQueueOpen with
    | true => simp [Client.exchange, Client.send, Client.enqueue, isOpen]
    | false => simp [Client.exchange, Client.send, Client.enqueue, isOpen]

/-- A query has found the connection there when the server ends. -/
def admitted : Session :=
  (start 0 "x" ⟨⟨"/"⟩, [], none, 9⟩ (.ofScript .empty) none).run
    [.begin (.ask .shutdown .fresh), .turn 0, .act .serverEnds]

theorem phase_of_stage {s : Session} {k : Nat} {st : AskStage}
    (h : (match s.phase k with
      | .asking _ st' => decide (st' = st)
      | _ => false) = true) : ∃ q, s.phase k = .asking q st := by
  split at h
  · next q st' stage => exact ⟨q, of_decide_eq_true h ▸ stage⟩
  · cases h

/-- The output ends before the query registers, and the writer has not noticed when it sends: it is waited
for after all, and nothing but its deadline ends that. -/
theorem output_end_strands_admitted :
    let e := admitted.next (.act (.hand .reader))
    let t := e.run [.turn 0, .turn 0, .turn 0]
    let t' := t.next (.pass 9)
    e.link.client.pending = [] ∧ t.link.client.pending = [.number 1] ∧
      ∃ q, t.phase 0 = .asking q (.waiting 1 9) ∧
        (t.link.client.exchange q t.now (.waiting 1 9)).2 = .wait (some 9) ∧
        (t'.link.client.exchange q t'.now (.waiting 1 9)).2 = .go (.expired 1) := by
  intro e t t'
  have reached : admitted.Reached := ⟨_, _, _, _, _, _, rfl⟩
  have ended : e.link.client.isReading = false := by decide +kernel
  have entering : e.Entering 0 := ⟨.shutdown, .admitted, rfl, trivial⟩
  obtain ⟨q, stage⟩ : ∃ q, t.phase 0 = .asking q (.waiting 1 9) := phase_of_stage (by decide +kernel)
  have early : t.now = 0 := by decide +kernel
  have due : t'.now = 9 := by decide +kernel
  obtain ⟨freed, -, -, waits, -⟩ := output_end_releases reached rfl ended [.turn 0, .turn 0, .turn 0]
    (by decide +kernel)
  obtain ⟨-, -, -, waits', -⟩ := output_end_releases reached rfl ended [.turn 0, .turn 0, .turn 0, .pass 9]
    (by decide +kernel)
  refine ⟨freed, by decide +kernel, q, stage, ?_, ?_⟩
  · exact (waits 0 q 1 9 stage entering).trans (if_neg (early ▸ by decide))
  · exact (waits' 0 q 1 9 stage entering).trans (if_pos (due ▸ Nat.le_refl 9))

end Session

end LanguageHost
