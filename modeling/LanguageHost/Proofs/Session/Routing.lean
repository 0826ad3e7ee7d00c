import LanguageHost.Proofs.Session.Chronicle
import Mathlib.Algebra.Group.Nat.Defs
import Mathlib.Data.List.Nodup

/-!
Responses reach their own queries. As long as no number comes twice, whoever is waited for and whatever has
come belongs to one query that is still under way, and so a response is handed to nobody else.
-/
namespace LanguageHost

open Event (Always)
open Client (cancellation)

/-! A query that was given up is cancelled while messages can be queued. -/

/-- What was told to the server before a query returned late. -/
def Event.Cancelled : Event → List Event → Prop
  | .returned k .late, older => ∃ (id : Int32) (q : Query) (before : List Event),
      (.queued (some k) (cancellation (.number id)) :: before) <:+ older ∧
        .numbered k id ∈ before ∧ .queued (some k) (q.request id) ∈ before
  | _, _ => True

theorem Event.cancelled_plain {e : Event} (plain : e.IsPlain) (older : List Event) :
    e.Cancelled older := by
  unfold Cancelled
  split
  · cases plain
  · trivial

theorem Event.Always.cancelled {log : List Event} {k : Nat} {q : Query} {now : Nat} {c c' : Client}
    {st : AskStage} {turn : Turn AskStage Answer} (h : Always Cancelled log)
    (told : Told log k (.asking q st)) (asked : c.Asked q now st c' turn)
    (isOpen : c.isQueueOpen = true) :
    Always Cancelled (ofTurn k turn ++ (queue (some k) c c' ++ log)) := by
  have h : Always Cancelled (queue (some k) c c' ++ log) :=
    h.append fun e there => cancelled_plain (plain_queue _ _ _ e there)
  obtain ⟨-, numbers, queued⟩ := told
  cases asked with
  | barred | left | lost | answered | numbered => exact h.cons (by simp [Cancelled])
  | admitted | registered | sent | refused | expired | waits | withdrawn => exact h
  | told id =>
    refine h.cons ⟨id, q, log, ?_, (numbers id).mpr rfl, queued id rfl⟩
    rw [queue_append]
    exact List.suffix_rfl
  | untold id shut =>
    rw [isOpen] at shut
    cases shut

namespace Session

variable {s s' : Session}

theorem Step.isQueueOpen (moved : s.Step s') (isOpen : s'.link.client.isQueueOpen = true) :
    s.link.client.isQueueOpen = true := by
  cases moved with
  | begins p first link => rwa [← link]
  | stirs uri? link => exact link.continues.client.queue isOpen
  | shifts k p onward client => exact client.queue isOpen
  | asks k q st c turn before asked client => exact asked.continues.queue (client.queue isOpen)

/-- While the queue is open, every query that returned late has been cancelled. -/
def Cancels (s : Session) : Prop := s.link.client.isQueueOpen = true → Always Event.Cancelled s.log

theorem Cancels.step (moved : s.Step s') (chronicle : Chronicle s.tickets s.phase s.log)
    (h : s.Cancels) : s'.Cancels := by
  intro isOpen
  have wasOpen := moved.isQueueOpen isOpen
  have before := h wasOpen
  cases moved with
  | begins p first link tickets phase log => rwa [log]
  | stirs uri? link tickets phase es plain log =>
    rw [log]
    exact before.append fun e there => Event.cancelled_plain (plain e there)
  | shifts k p onward client tickets phase es plain log =>
    rw [log]
    exact before.append fun e there => Event.cancelled_plain (plain e there)
  | asks k q st c turn stage asked client tickets phase es plain log =>
    have told : Event.Told s.log k (.asking q st) := stage ▸ chronicle.told k
    rw [log]
    exact (before.cancelled told asked wasOpen).append fun e there => Event.cancelled_plain (plain e there)

/-! Numbers. -/

/-- The numbers given out so far and whose they are, the latest first. -/
def numbersOf (log : List Event) : List (Nat × Int32) := log.filterMap fun
  | .numbered k id => some (k, id)
  | _ => none

theorem mem_numbersOf {log : List Event} {k : Nat} {id : Int32} :
    (k, id) ∈ numbersOf log ↔ .numbered k id ∈ log := by
  simp only [numbersOf, List.mem_filterMap]
  constructor
  · rintro ⟨e, there, own⟩
    split at own
    · cases own
      exact there
    · cases own
  · exact fun there => ⟨_, there, rfl⟩

theorem numbersOf_append (es log : List Event) : numbersOf (es ++ log) = numbersOf es ++ numbersOf log :=
  List.filterMap_append

theorem numbersOf_plain {es : List Event} (plain : ∀ e ∈ es, e.IsPlain) : numbersOf es = [] := by
  refine List.filterMap_eq_nil_iff.mpr fun e there => ?_
  split
  · cases plain _ there
  · rfl

/-- The first numbers that a client gives out, the latest first. -/
def firstNumbers : Nat → List Int32
  | 0 => []
  | n + 1 => Int32.ofNat (n + 1) :: firstNumbers n

theorem mem_firstNumbers {n : Nat} {id : Int32} (h : id ∈ firstNumbers n) :
    ∃ m, 0 < m ∧ m ≤ n ∧ id = Int32.ofNat m := by
  induction n with
  | zero => cases h
  | succ n ih =>
    rcases List.mem_cons.mp h with rfl | earlier
    · exact ⟨n + 1, by omega, by omega, rfl⟩
    · obtain ⟨m, positive, bound, same⟩ := ih earlier
      exact ⟨m, positive, by omega, same⟩

theorem ofNat_inj {m n : Nat} (hm : m < 2 ^ 32) (hn : n < 2 ^ 32) (h : Int32.ofNat m = Int32.ofNat n) :
    m = n := by
  have bits := congrArg (fun x : Int32 => x.toBitVec.toNat) h
  simp at bits
  omega

theorem nodup_firstNumbers {n : Nat} (few : n < 2 ^ 32) : (firstNumbers n).Nodup := by
  induction n with
  | zero => exact List.nodup_nil
  | succ n ih =>
    refine List.nodup_cons.mpr ⟨fun there => ?_, ih (by omega)⟩
    obtain ⟨m, -, bound, same⟩ := mem_firstNumbers there
    have := ofNat_inj (by omega) (by omega) same
    omega

/-- Numbers are given out in order. -/
structure Numbering (s : Session) : Prop where
  given : (numbersOf s.log).map Prod.snd = firstNumbers (numbersOf s.log).length
  next : s.link.client.nextId = Int32.ofNat ((numbersOf s.log).length + 1)

theorem accept_nextId (c : Client) (r : Response) : (c.accept r).nextId = c.nextId := by
  unfold Client.accept
  split
  · rfl
  · rfl

/-- A step gives out the next number, or none. -/
theorem Step.numbersOf (moved : s.Step s') :
    numbersOf s'.log = numbersOf s.log ∧ s'.link.client.nextId = s.link.client.nextId ∨
      ∃ k, numbersOf s'.log = (k, s.link.client.nextId) :: numbersOf s.log ∧
        s'.link.client.nextId = s.link.client.nextId + 1 := by
  cases moved with
  | begins p first link tickets phase log => exact .inl ⟨by rw [log], by rw [link]⟩
  | stirs uri? link tickets phase es plain log =>
    obtain ⟨c, stirred, aside⟩ := link.client
    refine .inl ⟨by rw [log, numbersOf_append, numbersOf_plain plain]; rfl, aside.nextId.trans ?_⟩
    cases stirred with
    | still | releases | reopens => rfl
    | accepts r _ => exact accept_nextId _ r
  | shifts k p onward client tickets phase es plain log =>
    exact .inl ⟨by rw [log, numbersOf_append, numbersOf_plain plain]; rfl, client.nextId⟩
  | asks k q st c turn before asked client tickets phase es plain log =>
    have told : Session.numbersOf s'.log =
        Session.numbersOf (Event.ofTurn k turn) ++ Session.numbersOf s.log := by
      rw [log, numbersOf_append, numbersOf_plain plain, numbersOf_append, numbersOf_append,
        numbersOf_plain (Event.plain_queue _ _ _)]
      rfl
    rw [told, client.nextId]
    cases asked with
    | numbered => exact .inr ⟨k, rfl, rfl⟩
    | _ => exact .inl ⟨rfl, rfl⟩

theorem Numbering.step (moved : s.Step s') (h : s.Numbering) : s'.Numbering := by
  rcases moved.numbersOf with ⟨same, nextId⟩ | ⟨k, one, nextId⟩
  · exact ⟨by rw [same, h.given], by rw [same, nextId, h.next]⟩
  · constructor
    · rw [one, List.map_cons, List.length_cons, firstNumbers, h.given, h.next]
    · rw [one, nextId, h.next, List.length_cons]
      exact (Int32.ofNat_add _ 1).symm

theorem Step.numbersOf_length_le (moved : s.Step s') :
    (Session.numbersOf s.log).length ≤ (Session.numbersOf s'.log).length := by
  rcases moved.numbersOf with ⟨same, -⟩ | ⟨k, one, -⟩
  · exact Nat.le_of_eq (congrArg List.length same.symm)
  · rw [one]
    exact Nat.le_succ _

/-- Numbers do not come twice as long as there are not too many. -/
theorem Numbering.unique (h : s.Numbering) (few : (numbersOf s.log).length < 2 ^ 32) {k k' : Nat}
    {id : Int32} (own : .numbered k id ∈ s.log) (own' : .numbered k' id ∈ s.log) : k = k' := by
  have nodup : ((numbersOf s.log).map Prod.snd).Nodup := by
    rw [h.given]
    exact nodup_firstNumbers few
  have same := List.inj_on_of_nodup_map nodup (mem_numbersOf.mpr own) (mem_numbersOf.mpr own') rfl
  exact (Prod.mk.inj same).1

/-! Who is waited for. -/

/-- A response with an identifier would be handed to a query that is under way. -/
def Lists (s : Session) (x : RequestId) : Prop :=
  ∃ k q st id, s.phase k = .asking q st ∧ st.listed? = some id ∧ x = .number id

/-- Whoever is waited for and whatever has come belongs to one query that is under way. -/
structure Routed (s : Session) : Prop where
  pending : ∀ x ∈ s.link.client.pending, s.Lists x
  arrived : ∀ r ∈ s.link.client.arrived, r.id ∉ s.link.client.pending ∧ s.Lists r.id

theorem Lists.update {k : Nat} {p : ClientCall.Phase} {x : RequestId} (h : s.Lists x)
    (phase : s'.phase = Function.update s.phase k p)
    (goesOn : ∀ q st id, s.phase k = .asking q st → st.listed? = some id → x = .number id →
      ∃ q' st', p = .asking q' st' ∧ st'.listed? = some id) : s'.Lists x := by
  obtain ⟨j, q, st, id, stage, listed, own⟩ := h
  by_cases same : j = k
  · subst same
    obtain ⟨q', st', rfl, listed'⟩ := goesOn q st id stage listed own
    exact ⟨j, q', st', id, by rw [phase, Function.update_self], listed', own⟩
  · exact ⟨j, q, st, id, by rw [phase, Function.update_of_ne same, stage], listed, own⟩

/-- Nobody is waited for any longer whose query has ended, and nothing more has come. -/
theorem Routed.sub (h : s.Routed) (pending : s'.link.client.pending ⊆ s.link.client.pending)
    (arrived : s'.link.client.arrived ⊆ s.link.client.arrived)
    (lists : ∀ x, (x ∈ s'.link.client.pending ∨ ∃ r ∈ s'.link.client.arrived, r.id = x) →
      s.Lists x → s'.Lists x) : s'.Routed := by
  constructor
  · intro x there
    exact lists x (.inl there) (h.pending x (pending there))
  · intro r there
    obtain ⟨apart, listed⟩ := h.arrived r (arrived there)
    exact ⟨fun back => apart (pending back), lists r.id (.inr ⟨r, there, rfl⟩) listed⟩

theorem Routed.same (h : s.Routed) (pending : s'.link.client.pending = s.link.client.pending)
    (arrived : s'.link.client.arrived = s.link.client.arrived) (lists : ∀ x, s.Lists x → s'.Lists x) :
    s'.Routed := by
  refine h.sub ?_ ?_ fun x _ => lists x
  · rw [pending]
    exact List.Subset.refl _
  · rw [arrived]
    exact List.Subset.refl _

theorem Routed.accept (h : s.Routed) {c : Client} (r : Response)
    (beside : (s.link.client.accept r).Beside c) (client : s'.link.client = c)
    (phase : s'.phase = s.phase) : s'.Routed := by
  have lists {x : RequestId} (listed : s.Lists x) : s'.Lists x := by
    rwa [Lists, phase]
  have pending : c.pending = (s.link.client.accept r).pending := beside.pending
  have arrived : c.arrived = (s.link.client.accept r).arrived := beside.arrived
  unfold Client.accept at pending arrived
  split at pending
  · next waited =>
    rw [if_pos waited] at arrived
    constructor
    · intro x there
      rw [client, pending] at there
      exact lists (h.pending x (List.mem_of_mem_filter there))
    · intro r' there
      rw [client, arrived] at there
      rw [client, pending]
      rcases List.mem_append.mp there with before | now
      · obtain ⟨apart, listed⟩ := h.arrived r' before
        exact ⟨fun back => apart (List.mem_of_mem_filter back), lists listed⟩
      · cases List.mem_singleton.mp now
        exact ⟨by simp [Client.forget], lists (h.pending _ waited)⟩
  · next dropped =>
    rw [if_neg dropped] at arrived
    exact h.same (client ▸ pending) (client ▸ arrived) fun x => lists

theorem Routed.stirs (h : s.Routed) {uri? : Option String} (link : s.link.Stirs uri? s'.link)
    (phase : s'.phase = s.phase) : s'.Routed := by
  obtain ⟨c, stirred, aside⟩ := link.client
  have lists (x : RequestId) (listed : s.Lists x) : s'.Lists x := by
    rwa [Lists, phase]
  cases stirred with
  | accepts r _ => exact h.accept r aside.toBeside rfl phase
  | still => exact h.same aside.pending aside.arrived lists
  | reopens uri => exact h.same aside.pending aside.arrived lists
  | releases =>
    refine h.sub ?_ ?_ fun x _ => lists x
    · rw [aside.pending]
      exact List.nil_subset _
    · rw [aside.arrived]
      exact List.Subset.refl _

/-! The query of a call takes a step. -/

section

variable {k : Nat} {q : Query} {st : AskStage} {turn : Turn AskStage Answer} {id : Int32}

/-- Whoever was waited for still is, as long as the query goes on. -/
theorem Lists.onward {x : RequestId} (listed : s.Lists x) (before : s.phase k = .asking q st)
    (phase : s'.phase = Function.update s.phase k (.after q st turn))
    (goesOn : ∀ id, st.listed? = some id →
      ∃ st', ClientCall.Phase.after q st turn = .asking q st' ∧ st'.listed? = some id) : s'.Lists x := by
  refine listed.update phase fun q' st' id stage own _ => ?_
  rw [before] at stage
  cases stage
  obtain ⟨st', next, own'⟩ := goesOn id own
  exact ⟨_, st', next, own'⟩

/-- The others are not concerned. -/
theorem Lists.apart {x : RequestId} (listed : s.Lists x) (before : s.phase k = .asking q st)
    (phase : s'.phase = Function.update s.phase k (.after q st turn)) (own : st.listed? = some id)
    (apart : x ≠ .number id) : s'.Lists x := by
  refine listed.update phase fun q' st' id' stage own' same => ?_
  rw [before] at stage
  cases stage
  rw [own] at own'
  cases own'
  exact absurd same apart

/-- The query ends, and neither is its number waited for any longer nor has a response to it come. -/
theorem Routed.leaves (h : s.Routed) (before : s.phase k = .asking q st)
    (phase : s'.phase = Function.update s.phase k (.after q st turn)) (own : st.listed? = some id)
    (pending : s'.link.client.pending ⊆ s.link.client.pending)
    (arrived : s'.link.client.arrived ⊆ s.link.client.arrived)
    (unlisted : .number id ∉ s'.link.client.pending)
    (missing : ∀ r ∈ s'.link.client.arrived, r.id ≠ .number id) : s'.Routed := by
  refine h.sub pending arrived fun x there listed => listed.apart before phase own ?_
  rcases there with waited | ⟨r, came, rfl⟩
  · rintro rfl
    exact unlisted waited
  · exact missing r came

theorem Routed.withdraws (h : s.Routed) (before : s.phase k = .asking q st)
    (phase : s'.phase = Function.update s.phase k (.after q st turn)) (own : st.listed? = some id)
    (client : (s.link.client.withdraw (.number id)).Beside s'.link.client) : s'.Routed := by
  have pending : s'.link.client.pending = s.link.client.pending.filter (· ≠ .number id) := client.pending
  have arrived : s'.link.client.arrived = s.link.client.arrived.filter fun r => r.id ≠ .number id :=
    client.arrived
  refine h.leaves before phase own ?_ ?_ ?_ fun r came => ?_
  · rw [pending]
    exact List.filter_subset_self _
  · rw [arrived]
    exact List.filter_subset_self _
  · simp [pending]
  · rw [arrived] at came
    simpa using List.of_mem_filter came

/-- The query is waited for from now on. Its number must be one that nobody else is waited for with. -/
theorem Routed.registers (h : s.Routed) (chronicle : Chronicle s.tickets s.phase s.log)
    (numbering : s.Numbering) (few : (numbersOf s.log).length < 2 ^ 32)
    (before : s.phase k = .asking q (.numbered id))
    (phase : s'.phase = Function.update s.phase k (.after q (.numbered id) (.go (.registered id))))
    (client : (s.link.client.register (.number id)).Beside s'.link.client) : s'.Routed := by
  have lists {x : RequestId} (listed : s.Lists x) : s'.Lists x :=
    listed.onward before phase nofun
  have stage : s'.phase k = .asking q (.registered id) := by
    rw [phase, Function.update_self]
    rfl
  have mine : s'.Lists (.number id) := ⟨k, q, .registered id, id, stage, rfl, rfl⟩
  have numbered : .numbered k id ∈ s.log := by
    have told := chronicle.told k
    rw [before] at told
    exact (told.2.1 id).mpr rfl
  have unused : ¬ s.Lists (.number id) := by
    rintro ⟨j, q', st', id', stage, listed, same⟩
    cases same
    have told := chronicle.told j
    rw [stage] at told
    have numbered' := (told.2.1 id).mpr (AskStage.id?_of_listed? listed)
    cases numbering.unique few numbered numbered'
    rw [before] at stage
    cases stage
    cases listed
  have pending : s'.link.client.pending =
      .number id :: s.link.client.pending.filter (· ≠ .number id) := client.pending
  constructor
  · intro x there
    rw [pending] at there
    rcases List.mem_cons.mp there with rfl | earlier
    · exact mine
    · exact lists (h.pending x (List.mem_of_mem_filter earlier))
  · intro r there
    rw [client.arrived] at there
    obtain ⟨apart, listed⟩ := h.arrived r there
    refine ⟨fun waited => ?_, lists listed⟩
    rw [pending] at waited
    rcases List.mem_cons.mp waited with same | earlier
    · exact unused (same ▸ listed)
    · exact apart (List.mem_of_mem_filter earlier)

theorem Routed.asks (h : s.Routed) (chronicle : Chronicle s.tickets s.phase s.log)
    (numbering : s.Numbering) (few : (numbersOf s.log).length < 2 ^ 32) {c : Client}
    (before : s.phase k = .asking q st) (asked : s.link.client.Asked q s.now st c turn)
    (client : c.Beside s'.link.client)
    (phase : s'.phase = Function.update s.phase k (.after q st turn)) : s'.Routed := by
  have unchanged (pending : c.pending = s.link.client.pending) (arrived : c.arrived = s.link.client.arrived)
      (goesOn : ∀ id, st.listed? = some id →
        ∃ st', ClientCall.Phase.after q st turn = .asking q st' ∧ st'.listed? = some id) : s'.Routed :=
    h.same (client.pending.trans pending) (client.arrived.trans arrived) fun x listed =>
      listed.onward before phase goesOn
  cases asked with
  | barred | admitted | numbered | told | untold => exact unchanged rfl rfl nofun
  | sent id => exact unchanged rfl rfl fun _ own => ⟨_, rfl, own⟩
  | refused id => exact unchanged rfl rfl fun _ own => ⟨_, rfl, own⟩
  | expired id deadline => exact unchanged rfl rfl fun _ own => ⟨_, rfl, own⟩
  | waits id deadline => exact unchanged rfl rfl fun _ own => ⟨_, rfl, own⟩
  | left id => exact h.withdraws before phase rfl client
  | withdrawn id => exact h.withdraws before phase rfl client
  | registered id => exact h.registers chronicle numbering few before phase client
  | lost id deadline missing unlisted =>
    refine h.leaves before phase rfl ?_ ?_ ?_ ?_
    · rw [client.pending]
      exact List.Subset.refl _
    · rw [client.arrived]
      exact List.Subset.refl _
    · rwa [client.pending]
    · rwa [client.arrived]
  | answered id deadline r there own =>
    refine h.leaves before phase rfl ?_ ?_ ?_ fun r' came => ?_
    · rw [client.pending]
      exact List.Subset.refl _
    · rw [client.arrived]
      exact List.filter_subset_self _
    · rw [client.pending]
      exact own ▸ (h.arrived r there).1
    · rw [client.arrived] at came
      simpa using List.of_mem_filter came

end

theorem Routed.step (moved : s.Step s') (chronicle : Chronicle s.tickets s.phase s.log)
    (numbering : s.Numbering) (few : (numbersOf s.log).length < 2 ^ 32) (h : s.Routed) : s'.Routed := by
  cases moved with
  | begins p first link tickets phase log =>
    refine h.same (by rw [link]) (by rw [link]) fun x listed => ?_
    refine listed.update phase fun q st id stage => ?_
    rw [(chronicle.begun _ (Nat.le_refl _)).1] at stage
    cases stage
  | stirs uri? link tickets phase => exact h.stirs link phase
  | shifts k p onward client tickets phase =>
    refine h.same client.pending client.arrived fun x listed => ?_
    refine listed.update phase fun q st id stage => ?_
    rcases onward with ⟨ahead, -⟩ | ⟨behind, -⟩
    · rw [ahead] at stage
      cases stage
    · rw [behind] at stage
      cases stage
  | asks k q st c turn before asked client tickets phase =>
    exact h.asks chronicle numbering few before asked client phase

end Session

end LanguageHost
