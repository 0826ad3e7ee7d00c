import LanguageHost.Protocol.Frame

/-! A stream of frames means the same however it is cut into chunks. What the decoder decides from a
part of the stream it decides from the whole: octets that arrive later stay behind what is decided. -/
namespace LanguageHost

namespace Frame

/-- What ends a header. -/
def emptyLine : Octets := [13, 10, 13, 10]

theorem headerEnd?_emptyLine (passed : Nat) (rest : Octets) :
    headerEnd? passed (emptyLine ++ rest) = some passed := rfl

theorem headerEnd?_cons {b : UInt8} {bs : Octets} (h : ¬ emptyLine <+: b :: bs) (passed : Nat) :
    headerEnd? passed (b :: bs) = headerEnd? (passed + 1) bs := by
  rw [headerEnd?.eq_def]
  split
  · next rest heq => exact absurd (heq ▸ List.prefix_append emptyLine rest) h
  · next heq =>
    simp only [List.cons.injEq] at heq
    obtain ⟨rfl, rfl⟩ := heq
    rfl
  · contradiction

theorem headerEnd?_succ (passed : Nat) (bs : Octets) :
    headerEnd? (passed + 1) bs = (headerEnd? passed bs).map (· + 1) := by
  induction bs generalizing passed with
  | nil => rfl
  | cons b bs ih =>
    by_cases start : emptyLine <+: b :: bs
    · obtain ⟨rest, same⟩ := start
      rw [← same, headerEnd?_emptyLine, headerEnd?_emptyLine]
      rfl
    · rw [headerEnd?_cons start, headerEnd?_cons start, ih]

theorem cutHeader?_emptyLine (rest : Octets) : cutHeader? (emptyLine ++ rest) = some ([], rest) := rfl

theorem cutHeader?_cons {b : UInt8} {bs : Octets} (h : ¬ emptyLine <+: b :: bs) :
    cutHeader? (b :: bs) = (cutHeader? bs).map fun (front, body) => (b :: front, body) := by
  rw [cutHeader?, headerEnd?_cons h, headerEnd?_succ, Option.map_map, cutHeader?, Option.map_map]
  rfl

/-- The cut is at the first empty line. -/
theorem cutHeader?_eq_some_iff {bs front rest : Octets} :
    cutHeader? bs = some (front, rest) ↔
      bs = front ++ emptyLine ++ rest ∧ ∀ i < front.length, ¬ emptyLine <+: bs.drop i := by
  induction bs generalizing front with
  | nil => simp [cutHeader?, headerEnd?, emptyLine]
  | cons b bs ih =>
    by_cases start : emptyLine <+: b :: bs
    · obtain ⟨tail, same⟩ := start
      rw [← same, cutHeader?_emptyLine]
      constructor
      · rintro ⟨⟩
        simp
      · rintro ⟨split, first⟩
        cases front with
        | nil => simpa using split
        | cons c front => exact absurd (List.prefix_append _ _) (first 0 (by simp))
    · rw [cutHeader?_cons start]
      cases front with
      | nil =>
        constructor
        · simp
        · rintro ⟨split, -⟩
          exact absurd (split ▸ by simp) start
      | cons c front =>
        constructor
        · intro h
          simp only [Option.map_eq_some_iff, Prod.exists, Prod.mk.injEq, List.cons.injEq] at h
          obtain ⟨u, v, cut, ⟨rfl, rfl⟩, rfl⟩ := h
          obtain ⟨split, first⟩ := ih.mp cut
          refine ⟨by rw [split]; simp, fun i hi => ?_⟩
          cases i with
          | zero => exact start
          | succ i => exact first i (by simpa using hi)
        · rintro ⟨split, first⟩
          simp only [List.cons_append, List.cons.injEq] at split
          obtain ⟨rfl, split⟩ := split
          have cut := ih.mpr ⟨split, fun i hi => first (i + 1) (by simpa using hi)⟩
          simp [cut]

theorem cutHeader?_append {bs front rest : Octets} (h : cutHeader? bs = some (front, rest))
    (more : Octets) : cutHeader? (bs ++ more) = some (front, rest ++ more) := by
  obtain ⟨split, first⟩ := cutHeader?_eq_some_iff.mp h
  refine cutHeader?_eq_some_iff.mpr ⟨by simp [split], fun i hi early => first i hi ?_⟩
  -- an empty line that starts inside the header has all its octets before the cut
  have long : emptyLine.length ≤ (bs.drop i).length := by
    simp only [split, List.length_drop, List.length_append]
    omega
  rw [List.drop_append_of_le_length (by simp only [split, List.length_append]; omega)] at early
  exact List.prefix_of_prefix_length_le early (List.prefix_append _ _) long

end Frame

namespace Decoder

/-- Without a header taken off, nothing has happened. -/
theorem eq_of_header {d d' : Decoder} (h : d.header = .ok d') (none : d'.pending = none) :
    d' = d := by
  unfold header at h
  split at h
  · simpa using h.symm
  · split at h
    · simpa using h.symm
    · next front rest _ =>
      cases length : Frame.bodyLength front with
      | error e => simp [length, bind, Except.bind] at h
      | ok m =>
        simp only [length, bind, Except.bind, Except.ok.injEq] at h
        subst h
        contradiction

theorem header_push {d d' : Decoder} {n : Nat} (h : d.header = .ok d') (taken : d'.pending = some n)
    (bs : Octets) : (d.push bs).header = .ok (d'.push bs) := by
  unfold header at h ⊢
  cases waiting : d.pending with
  | some m =>
    simp only [waiting, Except.ok.injEq] at h
    subst h
    simp only [push, waiting]
  | none =>
    simp only [waiting] at h
    cases cut : Frame.cutHeader? d.buffer with
    | none =>
      simp only [cut, Except.ok.injEq] at h
      subst h
      simp [waiting] at taken
    | some parts =>
      obtain ⟨front, rest⟩ := parts
      simp only [push, waiting, Frame.cutHeader?_append cut bs]
      cases length : Frame.bodyLength front with
      | error e => simp [cut, length, bind, Except.bind] at h
      | ok m =>
        simp only [cut, length, bind, Except.bind, Except.ok.injEq] at h
        subst h
        rfl

theorem body?_push {d rest : Decoder} {body : Octets} (h : d.body? = some (body, rest))
    (bs : Octets) : (d.push bs).body? = some (body, rest.push bs) := by
  unfold body? at h ⊢
  cases waiting : d.pending with
  | none => simp [waiting] at h
  | some n =>
    simp only [waiting] at h
    split at h
    · next enough =>
      simp only [Option.some.injEq, Prod.mk.injEq] at h
      obtain ⟨rfl, rfl⟩ := h
      have enough' : n ≤ (d.buffer ++ bs).length := by simp only [List.length_append]; omega
      simp only [push, waiting, if_pos enough', List.take_append_of_le_length enough,
        List.drop_append_of_le_length enough]
    · contradiction

theorem pending_of_body? {d rest : Decoder} {body : Octets} (h : d.body? = some (body, rest)) :
    ∃ n, d.pending = some n := by
  unfold body? at h
  cases waiting : d.pending with
  | none => simp [waiting] at h
  | some n => exact ⟨n, rfl⟩

theorem next_fault {d : Decoder} {e : FrameError} (h : d.header = .error e) :
    d.next = .fault e d := by
  rw [next.eq_def]
  split
  · next hd => cases h.symm.trans hd; rfl
  · next hd => cases h.symm.trans hd

theorem next_wait {d d' : Decoder} (h : d.header = .ok d') (hb : d'.body? = none) :
    d.next = .wait d' := by
  rw [next.eq_def]
  split
  · next hd => cases h.symm.trans hd
  · next hd =>
    cases h.symm.trans hd
    split
    · rfl
    · next hn => cases hb.symm.trans hn

theorem next_body {d d' rest : Decoder} {body : Octets} (h : d.header = .ok d')
    (hb : d'.body? = some (body, rest)) :
    d.next = match Message.ofBody? body with
      | some m => .message m rest
      | none => rest.next := by
  rw [next.eq_def]
  split
  · next hd => cases h.symm.trans hd
  · next hd =>
    cases h.symm.trans hd
    split
    · next hn => cases hb.symm.trans hn
    · next hn => cases hb.symm.trans hn; rfl

/-- The batch behind what has become of a body. -/
def Batch.behind (m : Option Message) (b : Batch) : Batch :=
  { b with messages := m.toList ++ b.messages }

theorem drain_eq (d : Decoder) : d.drain = match d.next with
    | .wait rest => ⟨[], none, rest⟩
    | .fault e rest => ⟨[], some e, rest⟩
    | .message m rest => rest.drain.behind (some m) := by
  rw [drain.eq_def]
  split <;> next hn => simp [hn, Batch.behind]

theorem drain_body {d d' rest : Decoder} {body : Octets} (h : d.header = .ok d')
    (hb : d'.body? = some (body, rest)) :
    d.drain = rest.drain.behind (Message.ofBody? body) := by
  rw [drain_eq, next_body h hb]
  cases Message.ofBody? body with
  | some m => rfl
  | none => rw [← drain_eq]; rfl

/-- The batch, and what a longer buffer gives once the batch is taken. -/
def Batch.push (b : Batch) (bs : Octets) : Batch :=
  let more := (b.rest.push bs).drain
  { more with messages := b.messages ++ more.messages }

theorem push_push (d : Decoder) (a b : Octets) : (d.push a).push b = d.push (a ++ b) := by
  simp [push]

/-- A header that is taken off stays so. -/
theorem header_header {d d' : Decoder} (h : d.header = .ok d') : d'.header = .ok d' := by
  cases taken : d'.pending with
  | some n => simp [header, taken]
  | none =>
    obtain rfl := eq_of_header h taken
    exact h

theorem drain_header {d d' : Decoder} (h : d.header = .ok d') : d.drain = d'.drain := by
  cases hb : d'.body? with
  | none => rw [drain_eq, drain_eq d', next_wait h hb, next_wait (header_header h) hb]
  | some taken => rw [drain_body h hb, drain_body (header_header h) hb]

theorem drain_push (d : Decoder) (bs : Octets) : (d.push bs).drain = d.drain.push bs := by
  induction size : d.size using Nat.strongRecOn generalizing d with
  | ind _ ih =>
    subst size
    cases hd : d.header with
    | error e =>
      have faulty : d.drain = ⟨[], some e, d⟩ := by rw [drain_eq, next_fault hd]
      simp [faulty, Batch.push]
    | ok d' =>
      cases hb : d'.body? with
      | none =>
        have waiting : d.drain = ⟨[], none, d'⟩ := by rw [drain_eq, next_wait hd hb]
        have same : (d.push bs).drain = (d'.push bs).drain := by
          cases taken : d'.pending with
          | none => rw [eq_of_header hd taken]
          | some n => exact drain_header (header_push hd taken bs)
        simp [waiting, Batch.push, same]
      | some taken =>
        obtain ⟨body, rest⟩ := taken
        obtain ⟨n, pending⟩ := pending_of_body? hb
        have shorter := Nat.lt_of_lt_of_le (body?_size hb) (header_size hd)
        rw [drain_body hd hb, drain_body (header_push hd pending bs) (body?_push hb bs),
          ih rest.size shorter rest rfl]
        simp [Batch.push, Batch.behind]

theorem Batch.push_push (b : Batch) (bs cs : Octets) : (b.push bs).push cs = b.push (bs ++ cs) := by
  have again := drain_push (b.rest.push bs) cs
  rw [Decoder.push_push] at again
  simp only [Batch.push] at again ⊢
  simp [again]

/-- What comes of chunks that arrive one after the other. -/
def receive (chunks : List Octets) : Batch := chunks.foldl Batch.push ⟨[], none, empty⟩

theorem foldl_push {b : Batch} (settled : b.push [] = b) (chunks : List Octets) :
    chunks.foldl Batch.push b = b.push chunks.flatten := by
  induction chunks generalizing b with
  | nil => exact settled.symm
  | cons chunk chunks ih =>
    have still : (b.push chunk).push [] = b.push chunk := by simp [Batch.push_push]
    rw [List.foldl_cons, ih still, Batch.push_push, List.flatten_cons]

theorem drain_empty : empty.drain = ⟨[], none, empty⟩ := by
  have waits : empty.next = .wait empty := next_wait rfl rfl
  rw [drain_eq, waits]

/-- Calls of the decoder, one after the other until it has nothing to give: how many calls, how many
rounds of their loops, and the batch. A body that is no message starts another round of its call. -/
inductive Draining : Decoder → Nat → Nat → Batch → Prop where
  | fault : d.header = .error e → Draining d 1 1 ⟨[], some e, d⟩
  | wait : d.header = .ok d' → d'.body? = none → Draining d 1 1 ⟨[], none, d'⟩
  | message : d.header = .ok d' → d'.body? = some (body, rest) → Message.ofBody? body = some m →
      Draining rest calls rounds b → Draining d (calls + 1) (rounds + 1) (b.behind (some m))
  | skip : d.header = .ok d' → d'.body? = some (body, rest) → Message.ofBody? body = none →
      Draining rest calls rounds b → Draining d calls (rounds + 1) b

theorem draining_exists (d : Decoder) :
    ∃ rounds ≤ d.size + 1, Draining d (d.drain.messages.length + 1) rounds d.drain := by
  induction size : d.size using Nat.strongRecOn generalizing d with
  | ind _ ih =>
    subst size
    cases hd : d.header with
    | error e =>
      rw [drain_eq, next_fault hd]
      exact ⟨1, by omega, .fault hd⟩
    | ok d' =>
      cases hb : d'.body? with
      | none =>
        rw [drain_eq, next_wait hd hb]
        exact ⟨1, by omega, .wait hd hb⟩
      | some taken =>
        obtain ⟨body, rest⟩ := taken
        have shorter := Nat.lt_of_lt_of_le (body?_size hb) (header_size hd)
        obtain ⟨rounds, bound, draining⟩ := ih rest.size shorter rest rfl
        refine ⟨rounds + 1, by omega, ?_⟩
        rw [drain_body hd hb]
        cases read : Message.ofBody? body with
        | some m => exact .message hd hb read draining
        | none => exact .skip hd hb read draining

theorem draining_unique {d : Decoder} {b b' : Batch} (h : Draining d calls rounds b)
    (h' : Draining d calls' rounds' b') : calls' = calls ∧ rounds' = rounds ∧ b' = b := by
  induction h generalizing calls' rounds' b' with
  | fault hd =>
    cases h' with
    | fault hd' => cases hd.symm.trans hd'; simp
    | wait hd' | message hd' | skip hd' => cases hd.symm.trans hd'
  | wait hd hb =>
    cases h' with
    | fault hd' => cases hd.symm.trans hd'
    | wait hd' => cases hd.symm.trans hd'; simp
    | message hd' hb' | skip hd' hb' =>
      cases hd.symm.trans hd'
      cases hb.symm.trans hb'
  | message hd hb read _ ih =>
    cases h' with
    | fault hd' => cases hd.symm.trans hd'
    | wait hd' hb' =>
      cases hd.symm.trans hd'
      cases hb.symm.trans hb'
    | message hd' hb' read' rest' =>
      cases hd.symm.trans hd'
      cases hb.symm.trans hb'
      cases read.symm.trans read'
      obtain ⟨rfl, rfl, rfl⟩ := ih rest'
      simp
    | skip hd' hb' read' =>
      cases hd.symm.trans hd'
      cases hb.symm.trans hb'
      cases read.symm.trans read'
  | skip hd hb read _ ih =>
    cases h' with
    | fault hd' => cases hd.symm.trans hd'
    | wait hd' hb' =>
      cases hd.symm.trans hd'
      cases hb.symm.trans hb'
    | message hd' hb' read' =>
      cases hd.symm.trans hd'
      cases hb.symm.trans hb'
      cases read.symm.trans read'
    | skip hd' hb' read' rest' =>
      cases hd.symm.trans hd'
      cases hb.symm.trans hb'
      obtain ⟨rfl, rfl, rfl⟩ := ih rest'
      simp

/-- Chunks give what the whole stream gives at once: the messages, the last fault, the octets that are
left and the length that is pending. Every draining ends, after a call more than there are messages and
within a number of rounds that the size of the decoder bounds. -/
theorem receive_eq_drain_flatten (chunks : List Octets) :
    receive chunks = (empty.push chunks.flatten).drain ∧
      ∀ d : Decoder, ∃ rounds ≤ d.size + 1, ∀ calls n b,
        Draining d calls n b ↔ calls = d.drain.messages.length + 1 ∧ n = rounds ∧ b = d.drain := by
  constructor
  · have same : empty.push [] = empty := rfl
    have settled : (⟨[], none, empty⟩ : Batch).push [] = ⟨[], none, empty⟩ := by
      simp [Batch.push, same, drain_empty]
    rw [receive, foldl_push settled]
    simp [Batch.push]
  · intro d
    obtain ⟨rounds, bound, draining⟩ := draining_exists d
    refine ⟨rounds, bound, fun calls n b => ⟨draining_unique draining, ?_⟩⟩
    rintro ⟨rfl, rfl, rfl⟩
    exact draining

end Decoder

end LanguageHost
