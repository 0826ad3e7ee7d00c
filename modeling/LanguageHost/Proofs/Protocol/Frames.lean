import LanguageHost.Proofs.Protocol.Chunks
import LanguageHost.Proofs.Text.Blank
import LanguageHost.Proofs.Text.Utf8

/-! Frames are told apart by their lengths alone. Whatever stands in a body, and whether or not it is a
message, the next frame begins where the length says. -/
namespace LanguageHost

namespace Frame
open Text

/-- The line is for the length: its name stands in front of the first colon, in letters of any case and
between any blanks. What follows the colon is `value`. -/
def NamesLength (line value : List Char) : Prop :=
  ∃ front name back, Blank front ∧ Blank back ∧ name.map asciiLower = "content-length".toList ∧
    line = front ++ name ++ back ++ ':' :: value

/-- The value is a number in decimal digits between any blanks. -/
def WritesNumber (value : List Char) (n : Nat) : Prop :=
  ∃ front digits back, Blank front ∧ Blank back ∧ digits ≠ [] ∧ (∀ c ∈ digits, c.isDigit = true) ∧
    value = front ++ digits ++ back ∧ Nat.ofDigitChars 10 digits 0 = n

theorem name_solid {name : List Char} (h : name.map asciiLower = "content-length".toList) :
    ∀ c ∈ name, isBlank c = false ∧ c ≠ ':' := by
  have letters : ("content-length".toList.all fun c => !isBlank c && c != ':') = true := by decide
  intro c hc
  have lower : isBlank (asciiLower c) = false ∧ asciiLower c ≠ ':' := by
    simpa using List.all_eq_true.mp letters (asciiLower c) (h ▸ List.mem_map_of_mem hc)
  constructor
  · cases blank : isBlank c with
    | false => rfl
    | true =>
      rw [asciiLower_of_isBlank blank, blank] at lower
      exact lower.1
  · rintro rfl
    exact lower.2 rfl

theorem lengthText?_names {line value : List Char} (h : NamesLength line value) :
    lengthText? line = some (trimmed value) := by
  obtain ⟨front, name, back, hf, hb, named, rfl⟩ := h
  have colon : ':' ∉ front ++ name ++ back := by
    simp only [List.mem_append, not_or]
    refine ⟨⟨fun hc => ?_, fun hc => (name_solid named _ hc).2 rfl⟩, fun hc => ?_⟩
    · exact absurd (hf _ hc) (by decide)
    · exact absurd (hb _ hc) (by decide)
  have ne : name ≠ [] := by
    rintro rfl
    exact absurd named (by decide)
  have inner := trimmed_between hf hb (fun c hc => (name_solid named c hc).1) ne
  simp only [lengthText?, cut?_append colon, inner, named, if_true]

theorem lengthText?_other {line : List Char} (h : ∀ value, ¬ NamesLength line value) :
    lengthText? line = none := by
  unfold lengthText?
  cases cut : cut? ':' line with
  | none => rfl
  | some parts =>
    obtain ⟨name, value⟩ := parts
    refine if_neg fun named => h value ?_
    obtain ⟨front, back, hf, hb, whole⟩ := exists_eq_trimmed name
    exact ⟨front, trimmed name, back, hf, hb, named, by rw [← whole]; exact cut?_eq cut⟩

theorem digit_solid {c : Char} (h : c.isDigit = true) : isBlank c = false ∧ c ≠ '+' := by
  simp only [Char.isDigit, Bool.and_eq_true, decide_eq_true_eq, UInt32.le_iff_toNat_le] at h
  have low : 48 ≤ c.toNat := h.1
  have high : c.toNat ≤ 57 := h.2
  constructor
  · cases blank : isBlank c with
    | false => rfl
    | true =>
      simp only [isBlank, Bool.or_eq_true, Bool.and_eq_true, decide_eq_true_eq, beq_iff_eq] at blank
      omega
  · rintro rfl
    simp at low

theorem length?_unsigned {cs : List Char} (h : '+' ∉ cs) :
    length? cs = if cs.isEmpty ∨ !cs.all isDigit then none
      else if numeral 10 cs ≤ 0xffffffffffffffff then some (numeral 10 cs) else none := by
  simp only [length?]
  split
  · simp at h
  · rfl

theorem length?_number {value : List Char} {n : Nat} (h : WritesNumber value n)
    (fits : n ≤ lengthLimit) : length? (trimmed value) = some n := by
  obtain ⟨front, digits, back, hf, hb, ne, all, rfl, rfl⟩ := h
  rw [trimmed_between hf hb (fun c hc => (digit_solid (all c hc)).1) ne,
    length?_unsigned fun hc => (digit_solid (all _ hc)).2 rfl, numeral_eq_ofDigitChars all]
  have digit : digits.all isDigit = true :=
    List.all_eq_true.mpr fun c hc => (isDigit_eq c).trans (all c hc)
  have bound : Nat.ofDigitChars 10 digits 0 ≤ 0xffffffffffffffff :=
    Nat.le_trans fits (by decide)
  rw [if_neg (by simp [digit, ne]), if_pos bound]

theorem lastLength_other {lines : List (List Char)} (h : ∀ l ∈ lines, lengthText? l = none)
    (found : Option Nat) (rest : List (List Char)) :
    lastLength found (lines ++ rest) = lastLength found rest := by
  induction lines with
  | nil => rfl
  | cons l lines ih =>
    simp only [List.cons_append, lastLength, h l (by simp)]
    exact ih fun l hl => h l (by simp [hl])

/-! Lines, and the octets they are sent as. -/

/-- A line that may stand in a header. -/
def IsLine (line : List Char) : Prop := line ≠ [] ∧ '\r' ∉ line ∧ '\n' ∉ line

def lineEnd : List Char := ['\r', '\n']

theorem headerLines_line {line : List Char} (h : '\r' ∉ line) (rest : List Char) :
    headerLines (line ++ lineEnd ++ rest) = line :: headerLines rest := by
  induction line with
  | nil => rfl
  | cons c line ih =>
    simp only [List.mem_cons, not_or] at h
    have inner := ih h.2
    rw [List.cons_append, List.cons_append, headerLines, inner]
    rintro tail rfl
    exact absurd rfl h.1

theorem headerLines_last {line : List Char} (h : '\r' ∉ line) : headerLines line = [line] := by
  induction line with
  | nil => rfl
  | cons c line ih =>
    simp only [List.mem_cons, not_or] at h
    rw [headerLines, ih h.2]
    rintro tail rfl
    exact absurd rfl h.1

theorem headerLines_joined {lines : List (List Char)} (h : ∀ l ∈ lines, IsLine l)
    (ne : lines ≠ []) : headerLines (lineEnd.intercalate lines) = lines := by
  induction lines with
  | nil => contradiction
  | cons l lines ih =>
    have line := (h l (by simp)).2.1
    cases lines with
    | nil => rw [List.intercalate_singleton, headerLines_last line]
    | cons m lines =>
      rw [List.intercalate_cons_cons, headerLines_line line,
        ih (fun l hl => h l (List.mem_cons_of_mem _ hl)) (by simp)]

theorem cutHeader?_behind {w : Octets} (h : 13 ∉ w) (rest : Octets) :
    cutHeader? (w ++ rest) = (cutHeader? rest).map fun (front, body) => (w ++ front, body) := by
  induction w with
  | nil => simp
  | cons b w ih =>
    simp only [List.mem_cons, not_or] at h
    have other : ¬ emptyLine <+: b :: (w ++ rest) := fun start =>
      h.1 (List.cons_prefix_cons.mp start).1
    rw [List.cons_append, cutHeader?_cons other, ih h.2, Option.map_map]
    rfl

/-- The end of a line does not end the header when another line follows. -/
theorem cutHeader?_lineEnd {b : UInt8} (h : b ≠ 13) (rest : Octets) :
    cutHeader? (13 :: 10 :: b :: rest) =
      (cutHeader? (b :: rest)).map fun (front, body) => (13 :: 10 :: front, body) := by
  have first : ¬ emptyLine <+: 13 :: 10 :: b :: rest := by
    simp [emptyLine, List.cons_prefix_cons, h.symm]
  have second : ¬ emptyLine <+: 10 :: b :: rest := by simp [emptyLine, List.cons_prefix_cons]
  rw [cutHeader?_cons first, cutHeader?_cons second, Option.map_map]
  rfl

theorem IsLine.octets {line : List Char} (h : IsLine line) :
    ∃ b w, Utf8.encode line = b :: w ∧ 13 ∉ b :: w := by
  cases octets : Utf8.encode line with
  | nil => exact absurd octets (Utf8.encode_ne_nil h.1)
  | cons b w =>
    exact ⟨b, w, rfl, fun hr => h.2.1 (Utf8.mem_of_mem_encode (octets ▸ hr) (by decide) (by decide))⟩

theorem cutHeader?_joined {lines : List (List Char)} (h : ∀ l ∈ lines, IsLine l) (ne : lines ≠ [])
    (rest : Octets) :
    cutHeader? (Utf8.encode (lineEnd.intercalate lines) ++ (emptyLine ++ rest)) =
      some (Utf8.encode (lineEnd.intercalate lines), rest) := by
  induction lines with
  | nil => contradiction
  | cons l lines ih =>
    obtain ⟨b, w, octets, clean⟩ := (h l (by simp)).octets
    cases lines with
    | nil =>
      rw [List.intercalate_singleton, octets, cutHeader?_behind clean, cutHeader?_emptyLine]
      simp
    | cons m lines =>
      have others : ∀ l ∈ m :: lines, IsLine l := fun l hl => h l (List.mem_cons_of_mem _ hl)
      obtain ⟨c, v, next, clean'⟩ := (others m (by simp)).octets
      have starts : ∃ tail, Utf8.encode (lineEnd.intercalate (m :: lines)) = c :: tail := by
        cases lines with
        | nil => exact ⟨v, by rw [List.intercalate_singleton, next]⟩
        | cons k lines =>
          rw [List.intercalate_cons_cons, Utf8.encode_append, Utf8.encode_append, next]
          exact ⟨_, rfl⟩
      obtain ⟨tail, starts⟩ := starts
      have inner := ih others (by simp)
      rw [starts, List.cons_append] at inner
      have ne : c ≠ 13 := fun hc => clean' (by simp [hc])
      rw [List.intercalate_cons_cons, Utf8.encode_append, Utf8.encode_append, octets, starts,
        show Utf8.encode lineEnd = [13, 10] from rfl, List.append_assoc, List.append_assoc,
        cutHeader?_behind clean]
      simp only [List.cons_append, List.nil_append]
      rw [cutHeader?_lineEnd ne, inner]
      simp

/-- A frame as a sender may write it. -/
structure Written where
  before : List (List Char)
  /-- the one line that is for the length -/
  line : List Char
  after : List (List Char)
  value : List Char
  body : Octets
  lines_plain : ∀ l ∈ before ++ line :: after, IsLine l
  names : NamesLength line value
  single : ∀ l ∈ before ++ after, ∀ v, ¬ NamesLength l v
  announces : WritesNumber value body.length
  fits : body.length ≤ lengthLimit

namespace Written

def lines (f : Written) : List (List Char) := f.before ++ f.line :: f.after

def octets (f : Written) : Octets :=
  Utf8.encode (lineEnd.intercalate f.lines) ++ (emptyLine ++ f.body)

theorem bodyLength_lines (f : Written) :
    bodyLength (Utf8.encode (lineEnd.intercalate f.lines)) = .ok f.body.length := by
  have front : ∀ l ∈ f.before, lengthText? l = none :=
    fun l hl => lengthText?_other (f.single l (List.mem_append_left _ hl))
  have back : ∀ l ∈ f.after, lengthText? l = none :=
    fun l hl => lengthText?_other (f.single l (List.mem_append_right _ hl))
  have last : lastLength none f.lines = .ok (some f.body.length) := by
    rw [lines, lastLength_other front]
    simp only [lastLength, lengthText?_names f.names, length?_number f.announces f.fits]
    have rest := lastLength_other back (some f.body.length) []
    rw [List.append_nil] at rest
    rw [rest, lastLength]
  have split : headerLines (lineEnd.intercalate f.lines) = f.lines :=
    headerLines_joined f.lines_plain (by simp [lines])
  simp only [bodyLength, Utf8.decode_encode, split, last, bind, Except.bind]
  exact if_neg (Nat.not_lt.mpr f.fits)

/-- The frame that is written here: the one line that it needs, before its body. -/
def ofBody (body : Octets) (fits : body.length ≤ lengthLimit) : Written where
  before := []
  line := "Content-Length:".toList ++ ' ' :: Nat.toDigits 10 body.length
  after := []
  value := ' ' :: Nat.toDigits 10 body.length
  body := body
  lines_plain := by
    intro l hl
    obtain rfl := List.mem_singleton.mp hl
    have digits : ∀ c ∈ Nat.toDigits 10 body.length, c ≠ '\r' ∧ c ≠ '\n' := by
      intro c hc
      have digit := Nat.isDigit_of_mem_toDigits (by decide) (by decide) hc
      constructor <;> rintro rfl <;> exact absurd digit (by decide)
    refine ⟨by simp, ?_, ?_⟩ <;> simp only [List.mem_append, List.mem_cons, not_or]
    · exact ⟨by decide, by decide, fun hc => (digits _ hc).1 rfl⟩
    · exact ⟨by decide, by decide, fun hc => (digits _ hc).2 rfl⟩
  names := ⟨[], "Content-Length".toList, [], by simp [Blank], by simp [Blank], by decide, rfl⟩
  single := by simp
  announces := ⟨[' '], Nat.toDigits 10 body.length, [], by simp [Blank]; decide, by simp [Blank],
    Nat.toDigits_ne_nil, fun c hc => Nat.isDigit_of_mem_toDigits (by decide) (by decide) hc,
    by simp, Nat.ofDigitChars_ten_toDigits⟩
  fits := fits

theorem octets_ofBody (body : Octets) (fits : body.length ≤ lengthLimit) :
    (ofBody body fits).octets = encode body := by
  have text : ("Content-Length: " ++ toString body.length ++ "\r\n\r\n").toList =
      "Content-Length:".toList ++ ' ' :: Nat.toDigits 10 body.length ++ "\r\n\r\n".toList := by
    simp
  rw [encode, Utf8.ofString, text, Utf8.encode_append, List.append_assoc]
  simp only [octets, lines, ofBody, List.nil_append, List.intercalate_singleton]
  rfl

end Written

theorem bodyLength_le {header : Octets} {n : Nat} (h : bodyLength header = .ok n) : n ≤ lengthLimit := by
  unfold bodyLength at h
  split at h
  · cases h
  · next cs _ =>
    cases last : lastLength none (headerLines cs) with
    | error e =>
      rw [last] at h
      cases h
    | ok found =>
      rw [last] at h
      cases found with
      | none => cases h
      | some m =>
        change (if lengthLimit < m then _ else _) = _ at h
        split at h
        · cases h
        · cases h
          omega

theorem cutHeader?_eq_none_iff {bs : Octets} : cutHeader? bs = none ↔ ¬ emptyLine <:+: bs := by
  induction bs with
  | nil => simp [cutHeader?, headerEnd?, emptyLine]
  | cons b bs ih =>
    rw [List.infix_cons_iff, not_or]
    by_cases start : emptyLine <+: b :: bs
    · have found : ¬ cutHeader? (b :: bs) = none := by
        obtain ⟨rest, same⟩ := start
        rw [← same, cutHeader?_emptyLine]
        simp
      exact iff_of_false found fun both => both.1 start
    · rw [cutHeader?_cons start, Option.map_eq_none_iff, ih, and_iff_right start]

end Frame

namespace Decoder
open LanguageHost.Frame

/-- The header of a frame is taken off, whatever comes behind it. -/
theorem header_written (f : Written) (rest : Octets) :
    (empty.push (Utf8.encode (lineEnd.intercalate f.lines) ++ (emptyLine ++ rest))).header =
      .ok ⟨some f.body.length, rest⟩ := by
  have ne : f.lines ≠ [] := by simp [Written.lines]
  have cut := cutHeader?_joined f.lines_plain ne rest
  have length := f.bodyLength_lines
  simp only [Decoder.header, empty, push, List.nil_append]
  rw [Written.lines] at length ⊢
  rw [cut]
  simp [length, bind, Except.bind]

theorem drain_written (f : Written) (rest : Octets) :
    (empty.push (f.octets ++ rest)).drain =
      (empty.push rest).drain.behind (Message.ofBody? f.body) := by
  have header : (empty.push (f.octets ++ rest)).header = .ok ⟨some f.body.length, f.body ++ rest⟩ := by
    simpa only [Written.octets, List.append_assoc] using header_written f (f.body ++ rest)
  have body : (Decoder.mk (some f.body.length) (f.body ++ rest)).body? =
      some (f.body, empty.push rest) := by
    simp [body?, empty, push]
  exact drain_body header body

/-- Frames written one after the other give the messages among their bodies, in order. Nothing else is
left: no fault, no octets, no length that is pending. -/
theorem drain_frames (frames : List Written) :
    (empty.push (frames.flatMap Written.octets)).drain =
      ⟨frames.filterMap fun f => Message.ofBody? f.body, none, empty⟩ := by
  induction frames with
  | nil => exact drain_empty
  | cons f frames ih =>
    rw [List.flatMap_cons, drain_written, ih]
    cases h : Message.ofBody? f.body <;> simp [Batch.behind, h]

/-! How much is kept while more is awaited. -/

/-- The decoder that a call leaves. -/
def Step.rest : Step → Decoder
  | .wait rest | .fault _ rest | .message _ rest => rest

/-- The decoders that any chunks lead to, with any number of calls behind each. -/
inductive Reached : Decoder → Prop
  | empty : Reached .empty
  | push {d : Decoder} (chunk : Octets) : Reached d → Reached (d.push chunk)
  | next {d : Decoder} : Reached d → Reached d.next.rest

/-- A length that is pending is one that is taken. -/
def Within (d : Decoder) : Prop := ∀ n, d.pending = some n → n ≤ lengthLimit

theorem Within.header {d d' : Decoder} (within : d.Within) (h : d.header = .ok d') : d'.Within := by
  intro n pending
  unfold Decoder.header at h
  split at h
  · cases h
    exact within n pending
  · split at h
    · cases h
      exact within n pending
    · next front rest _ =>
      cases length : bodyLength front with
      | error e =>
        rw [length] at h
        cases h
      | ok m =>
        rw [length] at h
        cases h
        cases pending
        exact bodyLength_le length

theorem within_of_body? {d rest : Decoder} {body : Octets} (h : d.body? = some (body, rest)) :
    rest.Within := by
  obtain ⟨n, pending⟩ := pending_of_body? h
  intro m there
  unfold body? at h
  rw [pending] at h
  dsimp only at h
  split at h
  · cases h
    cases there
  · cases h

theorem Within.next {d : Decoder} (within : d.Within) : d.next.rest.Within := by
  fun_induction Decoder.next d with
  | case1 d e hd => exact within
  | case2 d d' hd hb => exact within.header hd
  | case3 d d' hd body rest hb shorter m hm => exact within_of_body? hb
  | case4 d d' hd body rest hb shorter hm ih => exact ih (within_of_body? hb)

theorem Reached.within {d : Decoder} (reached : Reached d) : d.Within := by
  induction reached with
  | empty =>
    intro n pending
    cases pending
  | push chunk _ ih => exact ih
  | next _ ih => exact ih.next

/-- A decoder that waits has tried everything that it can. -/
theorem settled_of_wait {d w : Decoder} (h : d.next = .wait w) : w.header = .ok w ∧ w.body? = none := by
  fun_induction Decoder.next d with
  | case1 => cases h
  | case2 d d' hd hb =>
    cases h
    exact ⟨header_header hd, hb⟩
  | case3 => cases h
  | case4 d d' hd body rest hb shorter hm ih => exact ih h

theorem body_awaited_iff {w : Decoder} {n : Nat} (pending : w.pending = some n) :
    w.header = .ok w ∧ w.body? = none ↔ w.buffer.length < n := by
  simp [Decoder.header, body?, pending]

theorem header_awaited_iff {w : Decoder} (pending : w.pending = none) :
    w.header = .ok w ∧ w.body? = none ↔ ¬ emptyLine <:+: w.buffer := by
  have nothing : w.body? = none := by simp [body?, pending]
  rw [and_iff_left nothing, ← cutHeader?_eq_none_iff]
  constructor
  · intro same
    cases cut : cutHeader? w.buffer with
    | none => rfl
    | some parts =>
      obtain ⟨front, rest⟩ := parts
      simp only [Decoder.header, pending, cut] at same
      cases length : bodyLength front with
      | error e =>
        rw [length] at same
        cases same
      | ok n =>
        rw [length] at same
        cases same
        cases pending
  · intro cut
    simp [Decoder.header, pending, cut]

theorem awaited_iff {w : Decoder} : (∃ d, Reached d ∧ d.next = .wait w) ↔
    (∃ n ≤ lengthLimit, w.pending = some n ∧ w.buffer.length < n) ∨
      (w.pending = none ∧ ¬ emptyLine <:+: w.buffer) := by
  constructor
  · rintro ⟨d, reached, waits⟩
    have within : w.Within := by
      have after := reached.next.within
      rwa [waits] at after
    have settled := settled_of_wait waits
    cases pending : w.pending with
    | some n => exact .inl ⟨n, within n pending, rfl, (body_awaited_iff pending).mp settled⟩
    | none => exact .inr ⟨rfl, (header_awaited_iff pending).mp settled⟩
  · rintro (⟨n, fits, pending, short⟩ | ⟨pending, unended⟩)
    · -- a frame of that length has begun
      obtain ⟨-, waits⟩ := (body_awaited_iff pending).mpr short
      obtain ⟨_, buffer⟩ := w
      cases pending
      have length : (List.replicate n (0 : UInt8)).length = n := List.length_replicate
      have taken := header_written (Written.ofBody (List.replicate n 0) (length.symm ▸ fits)) buffer
      rw [show (Written.ofBody (List.replicate n 0) (length.symm ▸ fits)).body.length = n from length]
        at taken
      exact ⟨_, .push _ .empty, next_wait taken waits⟩
    · obtain ⟨waits, nothing⟩ := (header_awaited_iff pending).mpr unended
      obtain ⟨_, buffer⟩ := w
      cases pending
      exact ⟨_, .push buffer .empty, next_wait waits nothing⟩

/-- A length that is pending is within the limit. A decoder waits for a body, of which a part is there, or for
the end of a header, of which any number of octets may be there; so what it has kept is beyond the limit just
where it has found no empty line. -/
theorem awaits_body_within_limit_or_any_header (w : Decoder) :
    (Reached w → ∀ n, w.pending = some n → n ≤ lengthLimit) ∧
    ((∃ d, Reached d ∧ d.next = .wait w) ↔
      (∃ n ≤ lengthLimit, w.pending = some n ∧ w.buffer.length < n) ∨
        (w.pending = none ∧ ¬ emptyLine <:+: w.buffer)) ∧
    ((∃ d, Reached d ∧ d.next = .wait w ∧ lengthLimit ≤ w.buffer.length) ↔
      w.pending = none ∧ ¬ emptyLine <:+: w.buffer ∧ lengthLimit ≤ w.buffer.length) := by
  refine ⟨fun reached => reached.within, awaited_iff, ?_⟩
  constructor
  · rintro ⟨d, reached, waits, long⟩
    rcases awaited_iff.mp ⟨d, reached, waits⟩ with ⟨n, fits, -, short⟩ | ⟨pending, unended⟩
    · omega
    · exact ⟨pending, unended, long⟩
  · rintro ⟨pending, unended, long⟩
    obtain ⟨d, reached, waits⟩ := awaited_iff.mpr (.inr ⟨pending, unended⟩)
    exact ⟨d, reached, waits, long⟩

theorem awaits_header_without_end :
    ∃ d w, Reached d ∧ d.next = .wait w ∧ lengthLimit < w.buffer.length := by
  have unended : ¬ emptyLine <:+: List.replicate (lengthLimit + 1) (120 : UInt8) := by
    intro inside
    have there := inside.subset (a := 13) (by decide)
    exact absurd (List.eq_of_mem_replicate there) (by decide)
  obtain ⟨d, reached, waits, -⟩ := (awaits_body_within_limit_or_any_header
    ⟨none, List.replicate (lengthLimit + 1) 120⟩).2.2.mpr ⟨rfl, unended, by simp⟩
  exact ⟨d, _, reached, waits, by simp⟩

end Decoder

end LanguageHost
