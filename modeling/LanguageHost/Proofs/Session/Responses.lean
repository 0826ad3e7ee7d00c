import LanguageHost.Proofs.Session.Routing

/-!
Responses in whole runs: each is handed to the query that it answers and to no other, and one that is not
due changes nothing for whoever waits.
-/
namespace LanguageHost

open Client (cancellation)

namespace Session

variable {s s' : Session}

/-! Whole runs. -/

/-- A state that some run of a client comes to. -/
def Reached (s : Session) : Prop :=
  ∃ now language config server process moves,
    s = (start now language config server process).run moves

structure Sound (s : Session) : Prop where
  chronicle : Chronicle s.tickets s.phase s.log
  numbering : s.Numbering
  cancels : s.Cancels
  routed : (numbersOf s.log).length < 2 ^ 32 → s.Routed

theorem Sound.step (moved : s.Step s') (h : s.Sound) : s'.Sound := by
  constructor
  · exact h.chronicle.step moved
  · exact h.numbering.step moved
  · exact h.cancels.step moved h.chronicle
  · intro few
    have before := Nat.lt_of_le_of_lt moved.numbersOf_length_le few
    exact (h.routed before).step moved h.chronicle h.numbering before

theorem Reached.sound (h : s.Reached) : s.Sound := by
  obtain ⟨now, language, config, server, process, moves, rfl⟩ := h
  refine run_keeps Sound.step ?_ moves
  constructor
  · exact Chronicle.start
  · exact ⟨rfl, rfl⟩
  · exact fun _ => Event.always_nil
  · exact fun _ => ⟨nofun, nofun⟩

/-- Whoever would be handed a response has the number for it, and has not returned. -/
theorem Sound.lists (h : s.Sound) {x : RequestId} (listed : s.Lists x) :
    ∃ k id, x = .number id ∧ .numbered k id ∈ s.log ∧ ∀ a, .returned k a ∉ s.log := by
  obtain ⟨k, q, st, id, stage, own, rfl⟩ := listed
  have told := h.chronicle.told k
  rw [stage] at told
  exact ⟨k, id, rfl, (told.2.1 id).mpr (AskStage.id?_of_listed? own), told.1⟩

/-- Nobody waits any longer for the number of a query that has returned. -/
theorem Sound.not_pending (h : s.Sound) (few : (numbersOf s.log).length < 2 ^ 32) {k : Nat} {id : Int32}
    {a : Answer} (own : .numbered k id ∈ s.log) (returned : .returned k a ∈ s.log) :
    .number id ∉ s.link.client.pending := by
  intro waited
  obtain ⟨j, id', same, own', unreturned⟩ := h.lists ((h.routed few).pending _ waited)
  cases same
  cases h.numbering.unique few own own'
  exact unreturned a returned

/-! Responses that are not due. -/

/-- Identifiers of responses that are not due: they were never given out, are already answered, or belong
to a query whose time is over. -/
inductive Undue (s : Session) (x : RequestId) : Prop
  | unknown (h : ∀ k id, .numbered k id ∈ s.log → x ≠ .number id)
  | arrived (r : Response) (there : r ∈ s.link.client.arrived) (same : r.id = x)
  | answered (k : Nat) (r : Response) (returned : .returned k (.response r) ∈ s.log) (same : r.id = x)
  | overdue (k : Nat) (q : Query) (id : Int32) (same : x = .number id)
      (stage : s.phase k = .asking q (.expired id) ∨ s.phase k = .asking q (.withdrawn id))
  | late (k : Nat) (id : Int32) (same : x = .number id) (own : .numbered k id ∈ s.log)
      (returned : .returned k .late ∈ s.log)

theorem accept_of_not_mem {c : Client} {r : Response} (h : r.id ∉ c.pending) : c.accept r = c := by
  rw [Client.accept, if_neg h]

/-- A response is no concern of a query with another number. -/
theorem exchange_accept {c : Client} {r : Response} {id : Int32} (other : r.id ≠ .number id) (q : Query)
    (now deadline : Nat) :
    ((c.accept r).exchange q now (.waiting id deadline)).2 = (c.exchange q now (.waiting id deadline)).2 := by
  unfold Client.accept
  split
  · have found : ((c.arrived ++ [r]).find? fun r => r.id = .number id) =
        c.arrived.find? fun r => r.id = .number id := by
      simp [List.find?_append, other]
    have waited : .number id ∈ c.pending.filter (· ≠ r.id) ↔ .number id ∈ c.pending := by
      simp [Ne.symm other]
    simp only [Client.exchange, Client.take?, Client.forget, found, waited]
    cases c.arrived.find? fun r => r.id = .number id with
    | some r' => rfl
    | none =>
      simp only [Option.map_none]
      split
      · rfl
      · split
        · rfl
        · rfl
  · rfl

theorem Undue.not_pending {x : RequestId} (h : s.Undue x) (sound : s.Sound)
    (few : (numbersOf s.log).length < 2 ^ 32) :
    x ∉ s.link.client.pending ∨ ∃ k q id, x = .number id ∧ s.phase k = .asking q (.expired id) := by
  cases h with
  | unknown unknown =>
    refine .inl fun waited => ?_
    obtain ⟨k, id, same, own, -⟩ := sound.lists ((sound.routed few).pending _ waited)
    exact unknown k id own same
  | arrived r there same => exact .inl (same ▸ ((sound.routed few).arrived r there).1)
  | answered k r returned same =>
    obtain ⟨older, ends, -, id, q, own, numbered, -⟩ := sound.chronicle.founded.mem returned
    have numbered := ends.subset (List.mem_cons_of_mem _ numbered)
    rw [← same, own]
    exact .inl (sound.not_pending few numbered returned)
  | overdue k q id same stage =>
    rcases stage with expired | withdrawn
    · exact .inr ⟨k, q, id, same, expired⟩
    · refine .inl fun waited => ?_
      obtain ⟨j, q', st, id', stage, listed, same'⟩ := (sound.routed few).pending _ waited
      cases same.symm.trans same'
      have told := sound.chronicle.told k
      have told' := sound.chronicle.told j
      rw [withdrawn] at told
      rw [stage] at told'
      cases sound.numbering.unique few ((told.2.1 id).mpr rfl)
        ((told'.2.1 id).mpr (AskStage.id?_of_listed? listed))
      rw [withdrawn] at stage
      cases stage
      cases listed
  | late k id same own returned =>
    rw [same]
    exact .inl (sound.not_pending few own returned)

/-- A response that is not due changes nothing for a query that waits. -/
theorem Undue.exchange {r : Response} (h : s.Undue r.id) (sound : s.Sound)
    (few : (numbersOf s.log).length < 2 ^ 32) {k : Nat} {q : Query} {id : Int32} {deadline : Nat}
    (stage : s.phase k = .asking q (.waiting id deadline)) (now : Nat) :
    ((s.link.route (.response r)).client.exchange q now (.waiting id deadline)).2 =
      (s.link.client.exchange q now (.waiting id deadline)).2 := by
  rcases h.not_pending sound few with unlisted | ⟨j, q', id', same, expired⟩
  · simp only [Link.route, accept_of_not_mem unlisted]
  · refine exchange_accept (fun own => ?_) q now deadline
    cases same.symm.trans own
    have told := sound.chronicle.told k
    have told' := sound.chronicle.told j
    rw [stage] at told
    rw [expired] at told'
    cases sound.numbering.unique few ((told.2.1 id).mpr rfl) ((told'.2.1 id).mpr rfl)
    rw [stage] at expired
    cases expired

theorem Sound.late (h : s.Sound) (few : (numbersOf s.log).length < 2 ^ 32) {k : Nat} {older : List Event}
    (ends : (.returned k .late :: older) <:+ s.log) :
    ∃ (id : Int32) (q : Query), .numbered k id ∈ older ∧ .queued (some k) (q.request id) ∈ older ∧
      .number id ∉ s.link.client.pending ∧
      (s.link.client.isQueueOpen = true → ∃ before,
        (.queued (some k) (cancellation (.number id)) :: before) <:+ older ∧
          .queued (some k) (q.request id) ∈ before) := by
  have returned : .returned k .late ∈ s.log := ends.subset List.mem_cons_self
  have gone {id : Int32} (own : .numbered k id ∈ older) : .number id ∉ s.link.client.pending :=
    h.not_pending few (ends.subset (List.mem_cons_of_mem _ own)) returned
  by_cases isOpen : s.link.client.isQueueOpen = true
  · obtain ⟨id, q, before, cancelled, own, queued⟩ := h.cancels isOpen _ _ ends
    have earlier := ((List.suffix_cons _ _).trans cancelled).subset
    exact ⟨id, q, earlier own, earlier queued, gone (earlier own), fun _ => ⟨before, cancelled, queued⟩⟩
  · obtain ⟨-, id, q, own, queued⟩ := h.chronicle.founded _ _ ends
    exact ⟨id, q, own, queued, gone own, fun shut => absurd shut isOpen⟩

/-- In every run with fewer queries than there are numbers: a query returns at most once; if it returns
from a response, that carried the number under which the query was queued, and no other query returned
from a response with it; a response that is not due changes nothing for a query that waits; and a query
that returned late is not waited for, and was cancelled behind its request if the queue is still open. -/
theorem responses_reach_their_queries (reached : s.Reached) (few : (numbersOf s.log).length < 2 ^ 32) :
    (∀ k a older, (.returned k a :: older) <:+ s.log → ∀ a', .returned k a' ∉ older) ∧
    (∀ k r older, (.returned k (.response r) :: older) <:+ s.log →
      ∃ (id : Int32) (q : Query), r.id = .number id ∧ .numbered k id ∈ older ∧
        .queued (some k) (q.request id) ∈ older ∧ (∀ j, .numbered j id ∈ s.log → j = k) ∧
        ∀ j r', .returned j (.response r') ∈ older → r'.id ≠ r.id) ∧
    (∀ r : Response, s.Undue r.id → ∀ k q id deadline, s.phase k = .asking q (.waiting id deadline) →
      ∀ now, ((s.link.route (.response r)).client.exchange q now (.waiting id deadline)).2 =
        (s.link.client.exchange q now (.waiting id deadline)).2) ∧
    (∀ k older, (.returned k .late :: older) <:+ s.log →
      ∃ (id : Int32) (q : Query), .numbered k id ∈ older ∧ .queued (some k) (q.request id) ∈ older ∧
        .number id ∉ s.link.client.pending ∧
        (s.link.client.isQueueOpen = true → ∃ before,
          (.queued (some k) (cancellation (.number id)) :: before) <:+ older ∧
            .queued (some k) (q.request id) ∈ before)) := by
  have sound := reached.sound
  refine ⟨fun k a older ends => (sound.chronicle.founded _ _ ends).1, fun k r older ends => ?_,
    fun r undue k q id deadline stage now => undue.exchange sound few stage now,
    fun k older ends => sound.late few ends⟩
  obtain ⟨once, id, q, own, numbered, queued⟩ := sound.chronicle.founded _ _ ends
  have known : older ⊆ s.log := ((List.suffix_cons _ _).trans ends).subset
  refine ⟨id, q, own, numbered, queued, fun j other => ?_, fun j r' earlier same => ?_⟩
  · exact sound.numbering.unique few other (known numbered)
  · -- whoever returned from a response with this number had the number
    obtain ⟨older', ends', -, id', q', own', numbered', -⟩ := sound.chronicle.founded.mem (known earlier)
    cases (own.symm.trans same.symm).trans own'
    have numbered' := ends'.subset (List.mem_cons_of_mem _ numbered')
    cases sound.numbering.unique few numbered' (known numbered)
    exact once _ earlier

/-- Two queries. The response to the one comes twice, and one with a number that was never given out comes
in between; the response to the other comes after its time. -/
def twoQueries : Session :=
  let q : Query := ⟨"textDocument/hover", .null, .nullable .hover⟩
  let answer (id : Int32) : Octets := Peer.wire (.number id) [("result", .null)]
  (start 0 "fake" ⟨⟨"/"⟩, [], none, 9⟩ (.ofScript .empty) none).run <|
    [.begin (.ask q .fresh), .begin (.ask q .fresh)] ++ List.replicate 4 (.turn 1) ++
    List.replicate 4 (.turn 0) ++ [.act (.emit (answer 2 ++ answer 7 ++ answer 2))] ++
    List.replicate 4 (.act (.hand .reader)) ++ [.turn 0, .pass 9, .turn 1, .turn 1, .turn 1] ++
    [.act (.emit (answer 1)), .act (.hand .reader), .act (.hand .reader)]

/-- The query that returned from a response. -/
def answeredBy? : Event → Option Nat
  | .returned k (.response _) => some k
  | _ => none

/-- The query that returned after its time. -/
def lateBy? : Event → Option Nat
  | .returned k .late => some k
  | _ => none

theorem twoQueries_answered_and_late :
    (numbersOf twoQueries.log).length < 2 ^ 32 ∧
      (∃ r older, (.returned 0 (.response r) :: older) <:+ twoQueries.log ∧ r.id = .number 2) ∧
      ∃ older before, (.returned 1 .late :: older) <:+ twoQueries.log ∧
        .number 1 ∉ twoQueries.link.client.pending ∧
        (.queued (some 1) (cancellation (.number 1)) :: before) <:+ older := by
  have numbers : numbersOf twoQueries.log = [(0, 2), (1, 1)] := by decide +kernel
  have isOpen : twoQueries.link.client.isQueueOpen = true := by decide +kernel
  have few : (numbersOf twoQueries.log).length < 2 ^ 32 := by
    rw [numbers]
    decide
  have owner {k : Nat} {id : Int32} (own : .numbered k id ∈ twoQueries.log) :
      (k, id) = (0, 2) ∨ (k, id) = (1, 1) := by
    simpa [numbers] using mem_numbersOf.mpr own
  obtain ⟨-, answered, -, late⟩ :=
    responses_reach_their_queries ⟨0, "fake", _, _, none, _, rfl⟩ few
  have first : 0 ∈ twoQueries.log.filterMap answeredBy? := by decide +kernel
  have second : 1 ∈ twoQueries.log.filterMap lateBy? := by decide +kernel
  refine ⟨few, ?_, ?_⟩
  · obtain ⟨e, there, own⟩ := List.mem_filterMap.mp first
    unfold answeredBy? at own
    split at own
    · next k r =>
      cases own
      obtain ⟨later, older, split⟩ := List.append_of_mem there
      have ends : (.returned 0 (.response r) :: older) <:+ twoQueries.log := ⟨later, split.symm⟩
      obtain ⟨id, q, same, numbered, -⟩ := answered 0 r older ends
      rcases owner (ends.subset (List.mem_cons_of_mem _ numbered)) with own | own
      · cases own
        exact ⟨r, older, ends, same⟩
      · cases own
    · cases own
  · obtain ⟨e, there, own⟩ := List.mem_filterMap.mp second
    unfold lateBy? at own
    split at own
    · next k =>
      cases own
      obtain ⟨later, older, split⟩ := List.append_of_mem there
      have ends : (.returned 1 .late :: older) <:+ twoQueries.log := ⟨later, split.symm⟩
      obtain ⟨id, q, numbered, -, gone, cancelled⟩ := late 1 older ends
      obtain ⟨before, told, -⟩ := cancelled isOpen
      rcases owner (ends.subset (List.mem_cons_of_mem _ numbered)) with own | own
      · cases own
      · cases own
        exact ⟨older, before, ends, gone, told⟩
    · cases own

end Session

end LanguageHost
