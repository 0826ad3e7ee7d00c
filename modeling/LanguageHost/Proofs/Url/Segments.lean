import Mathlib.Algebra.GroupWithZero.Nat
import Mathlib.Data.List.Infix
import LanguageHost.Proofs.Percent
import LanguageHost.Url.Basic
import LanguageHost.Url.Segments

/-! What escaped text stands for, and how the segments of a path are entered. Only the octets of a text are
read as it, and reading never makes a text longer; escaping more characters of a text leaves what it stands for,
and a path that stands for all of its text has lost no segment. -/
namespace LanguageHost

namespace Utf8

theorem lt_of_continuation? {b : UInt8} {x : Nat} (h : continuation? b = some x) : x < 0x40 := by
  unfold continuation? at h
  split at h
  · next within =>
      have below := within.2
      rw [UInt8.lt_iff_toNat_lt, show (0xC0 : UInt8).toNat = 0xC0 from rfl] at below
      have value := Option.some.inj h
      omega
  · cases h

theorem toNat_of_scalar? {least n : Nat} {c : Char} (h : scalar? least n = some c) :
    least ≤ n ∧ c.toNat = n := by
  unfold scalar? at h
  split at h
  · next valid =>
      cases h
      refine ⟨valid.1, ?_⟩
      rw [Char.ofNat, dif_pos valid.2]
      rfl
  · cases h

theorem length_encodeChar (c : Char) : (String.utf8EncodeChar c).length =
    if c.toNat ≤ 0x7F then 1 else if c.toNat ≤ 0x7FF then 2 else if c.toNat ≤ 0xFFFF then 3 else 4 := by
  unfold String.utf8EncodeChar
  simp only [show c.val.toNat = c.toNat from rfl]
  split
  · rfl
  · split
    · rfl
    · split
      · rfl
      · rfl

/-- What is read as a character is as long as the character's octets. -/
theorem length_of_next? {bs rest : Octets} {c : Char} (h : next? bs = some (c, rest)) :
    bs.length = (String.utf8EncodeChar c).length + rest.length := by
  unfold next? at h
  split at h
  · cases h
  · next a more =>
    simp only [UInt8.lt_iff_toNat_lt, UInt8.reduceToNat] at h
    split at h
    · next low =>
      obtain ⟨rfl, rfl⟩ := Prod.mk.inj (Option.some.inj h)
      have same : (Char.ofNat a.toNat).toNat = a.toNat := by
        rw [Char.ofNat, dif_pos (.inl (by omega))]
        rfl
      rw [length_encodeChar, same, if_pos (by omega), List.length_cons, Nat.add_comm]
    · split at h
      · cases h
      · split at h
        · split at h
          · next b more =>
            simp only [bind, Option.bind_eq_some_iff, pure, Option.some.injEq, Prod.mk.injEq] at h
            obtain ⟨x, hx, d, scalar, rfl, rfl⟩ := h
            have bound := lt_of_continuation? hx
            obtain ⟨least, value⟩ := toNat_of_scalar? scalar
            rw [length_encodeChar, value, if_neg (by omega), if_pos (by omega)]
            simp only [List.length_cons]
            omega
          · cases h
        · split at h
          · split at h
            · next b c more =>
              simp only [bind, Option.bind_eq_some_iff, pure, Option.some.injEq, Prod.mk.injEq] at h
              obtain ⟨x, hx, y, hy, d, scalar, rfl, rfl⟩ := h
              have bound := lt_of_continuation? hx
              have bound' := lt_of_continuation? hy
              obtain ⟨least, value⟩ := toNat_of_scalar? scalar
              rw [length_encodeChar, value, if_neg (by omega), if_neg (by omega), if_pos (by omega)]
              simp only [List.length_cons]
              omega
            · cases h
          · split at h
            · split at h
              · next b c d more =>
                simp only [bind, Option.bind_eq_some_iff, pure, Option.some.injEq, Prod.mk.injEq] at h
                obtain ⟨x, -, y, -, z, -, e, scalar, rfl, rfl⟩ := h
                obtain ⟨least, value⟩ := toNat_of_scalar? scalar
                rw [length_encodeChar, value, if_neg (by omega), if_neg (by omega), if_neg (by omega)]
                simp only [List.length_cons]
                omega
              · cases h
            · cases h

/-- Text is as long as the octets that it is read from. -/
theorem length_of_decode {bs : Octets} {cs : List Char} (h : decode bs = some cs) :
    (encode cs).length = bs.length := by
  induction cs generalizing bs with
  | nil =>
      cases bs with
      | nil => rfl
      | cons b bs =>
          rw [decode.eq_def] at h
          simp only [] at h
          split at h
          · cases h
          · obtain ⟨rest, -, none⟩ := Option.map_eq_some_iff.mp h
            cases none
  | cons c cs ih =>
      cases bs with
      | nil => simp [decode] at h
      | cons b bs =>
          rw [decode.eq_def] at h
          simp only [] at h
          split at h
          · cases h
          · next first =>
            obtain ⟨rest, more, same⟩ := Option.map_eq_some_iff.mp h
            cases same
            rw [encode_cons, List.length_append, ih more, length_of_next? first]

end Utf8

namespace Percent

theorem length_decodeOctets_le (bs : Octets) : (decodeOctets bs).length ≤ bs.length := by
  fun_induction decodeOctets bs with
  | case1 => exact Nat.le_refl _
  | case2 b c rest x y hc hb ih =>
      simp only [List.length_cons]
      omega
  | case3 b c rest other ih =>
      simp only [List.length_cons] at ih ⊢
      omega
  | case4 a rest other ih =>
      simp only [List.length_cons]
      omega

/-- Text that gets no shorter is not escaped. -/
theorem decodeOctets_of_length {bs : Octets} (h : (decodeOctets bs).length = bs.length) :
    decodeOctets bs = bs := by
  fun_induction decodeOctets bs with
  | case1 => rfl
  | case2 b c rest x y hc hb ih =>
      have bound := length_decodeOctets_le rest
      simp only [List.length_cons] at h
      omega
  | case3 b c rest other ih =>
      simp only [List.length_cons, Nat.add_right_cancel_iff] at h
      rw [ih (by simpa using h)]
  | case4 a rest other ih =>
      simp only [List.length_cons, Nat.add_right_cancel_iff] at h
      rw [ih h]

/-- A percent sign that two hexadecimal digits do not follow stands for itself. -/
theorem decodeOctets_percent {bs : Octets}
    (h : ∀ b c rest, bs = b :: c :: rest → hexOctet? b = none ∨ hexOctet? c = none) :
    decodeOctets (0x25 :: bs) = 0x25 :: decodeOctets bs := by
  cases bs with
  | nil => rfl
  | cons b more =>
      cases more with
      | nil => rfl
      | cons c rest =>
          rw [decodeOctets]
          rcases h b c rest rfl with none | none
          · rw [none]
          · rw [none]
            cases hexOctet? b <;> rfl

/-- No escape reaches over an octet that belongs to none. -/
theorem decodeOctets_append {b : UInt8} (sign : b ≠ 0x25) (digit : hexOctet? b = none) (front back : Octets) :
    decodeOctets (front ++ b :: back) = decodeOctets front ++ b :: decodeOctets back := by
  fun_induction decodeOctets front with
  | case1 => exact decodeOctets_other sign back
  | case2 c d rest x y hd hc ih =>
      simp only [List.cons_append]
      rw [decodeOctets, hc, hd, ih]
  | case3 c d rest other ih =>
      change decodeOctets (0x25 :: (c :: d :: rest ++ b :: back)) =
        0x25 :: (decodeOctets (c :: d :: rest) ++ b :: decodeOctets back)
      rw [← ih]
      refine decodeOctets_percent ?_
      rintro c' d' rest' same
      simp only [List.cons_append, List.cons.injEq] at same
      obtain ⟨rfl, rfl, -⟩ := same
      cases hc : hexOctet? c with
      | none => exact .inl rfl
      | some x =>
          cases hd : hexOctet? d with
          | none => exact .inr rfl
          | some y => exact absurd hd (other x y hc)
  | case4 a rest other ih =>
      by_cases first : a = 0x25
      · subst first
        rw [List.cons_append, List.cons_append, ← ih]
        refine decodeOctets_percent ?_
        rintro c d rest' same
        cases rest with
        | nil =>
            simp only [List.nil_append, List.cons.injEq] at same
            exact .inl (same.1 ▸ digit)
        | cons c' more =>
            cases more with
            | nil =>
                simp only [List.cons_append, List.nil_append, List.cons.injEq] at same
                exact .inr (same.2.1 ▸ digit)
            | cons d' more => exact absurd rfl (other c' d' more rfl)
      · rw [List.cons_append, decodeOctets_other first, ih, List.cons_append]

/-- What is written for an octet of a character. -/
def writtenOctet (escaped : Char → Bool) (b : UInt8) : Octets :=
  if b.toNat < 0x80 ∧ !escaped (Char.ofNat b.toNat) then [b] else Utf8.encode (octet b)

theorem encode_encodeChar (escaped : Char → Bool) (c : Char) :
    Utf8.encode (encodeChar escaped c) = (String.utf8EncodeChar c).flatMap (writtenOctet escaped) := by
  by_cases low : c.toNat < 0x80
  · have one : String.utf8EncodeChar c = [UInt8.ofNat c.toNat] := by
      unfold String.utf8EncodeChar
      exact if_pos (Nat.le_of_lt_succ low)
    have value : (UInt8.ofNat c.toNat).toNat = c.toNat := Utf8.toNat_octet (by omega)
    rw [one, List.flatMap_singleton, writtenOctet, value, Char.ofNat_toNat, encodeChar, one,
      List.flatMap_singleton]
    split
    · rw [encode_low low]
      rfl
    · rfl
  · rw [encodeChar, if_neg fun plain => low plain.1]
    have high : ∀ b ∈ String.utf8EncodeChar c, writtenOctet escaped b = Utf8.encode (octet b) := by
      intro b there
      refine if_neg fun plain => low ?_
      rw [← Utf8.toNat_of_mem_encodeChar there plain.1]
      exact plain.1
    rw [Utf8.encode, List.flatMap_assoc, List.flatMap_def, List.flatMap_def, List.map_congr_left high]
    rfl

theorem encode_encode (escaped : Char → Bool) (cs : List Char) :
    Utf8.encode (encode escaped cs) = (Utf8.encode cs).flatMap (writtenOctet escaped) := by
  induction cs with
  | nil => rfl
  | cons c cs ih =>
      rw [encode, List.flatMap_cons, Utf8.encode_append, encode_encodeChar, ← encode, ih, Utf8.encode_cons,
        List.flatMap_append]

/-- What an escaped octet is written as begins with a percent sign. -/
theorem writtenOctet_cases (escaped : Char → Bool) (b : UInt8) :
    writtenOctet escaped b = [b] ∨ writtenOctet escaped b = Utf8.encode (octet b) := by
  unfold writtenOctet
  split
  · exact .inl rfl
  · exact .inr rfl

theorem encode_octet (b : UInt8) : Utf8.encode (octet b) =
    [0x25, UInt8.ofNat (hexCapital (b.toNat / 16)).toNat, UInt8.ofNat (hexCapital (b.toNat % 16)).toNat] := by
  have bound : b.toNat < 256 := b.toNat_lt
  rw [octet, encode_low (by decide), encode_low (hexCapital_digit _ (by omega)).1,
    encode_low (hexCapital_digit _ (by omega)).1]
  rfl

theorem decodeOctets_written (b : UInt8) (bs : Octets) :
    decodeOctets (Utf8.encode (octet b) ++ bs) = b :: decodeOctets bs := by
  have bound : b.toNat < 256 := b.toNat_lt
  rw [encode_octet]
  simp only [List.cons_append, List.nil_append]
  rw [decodeOctets, hexOctet?_hexCapital (show b.toNat / 16 < 16 by omega),
    hexOctet?_hexCapital (show b.toNat % 16 < 16 by omega)]
  simp only [show b.toNat / 16 * 16 + b.toNat % 16 = b.toNat by omega, UInt8.ofNat_toNat]

/-- No digit is written for an octet that is none. -/
theorem head_writtenOctet (escaped : Char → Bool) {b : UInt8} (other : hexOctet? b = none) (bs : Octets) :
    ∃ x more, writtenOctet escaped b ++ bs = x :: more ∧ hexOctet? x = none := by
  rcases writtenOctet_cases escaped b with plain | written
  · exact ⟨b, bs, by rw [plain]; rfl, other⟩
  · rw [written, encode_octet]
    exact ⟨0x25, _, rfl, by decide⟩

theorem writtenOctet_of_digit {escaped : Char → Bool}
    (digits : ∀ c, Text.isHexDigit c = true → escaped c = false) {b : UInt8} (digit : hexOctet? b ≠ none) :
    writtenOctet escaped b = [b] := by
  simp only [hexOctet?] at digit
  split at digit
  · next hex =>
      refine if_pos ⟨?_, ?_⟩
      · have low := hex.1
        rwa [UInt8.lt_iff_toNat_lt] at low
      · rw [digits _ hex.2]
        rfl
  · contradiction

section unescaping
variable {escaped : Char → Bool} (sign : escaped '%' = false)
  (digits : ∀ c, Text.isHexDigit c = true → escaped c = false)
include sign digits

/-- Escaping what belongs to no escape leaves what a text stands for. -/
theorem decodeOctets_flatMap_written (bs : Octets) :
    decodeOctets (bs.flatMap (writtenOctet escaped)) = decodeOctets bs := by
  have plain : writtenOctet escaped 0x25 = [0x25] := by
    refine if_pos ⟨by decide, ?_⟩
    rw [show Char.ofNat (0x25 : UInt8).toNat = '%' from rfl, sign]
    rfl
  fun_induction decodeOctets bs with
  | case1 => rfl
  | case2 b c rest x y hc hb ih =>
      simp only [List.flatMap_cons, plain, writtenOctet_of_digit digits (b := b) (by simp [hb]),
        writtenOctet_of_digit digits (b := c) (by simp [hc]), List.cons_append, List.nil_append]
      rw [decodeOctets, hb, hc, ih]
  | case3 b c rest other ih =>
      rw [List.flatMap_cons, plain, List.singleton_append, ← ih]
      refine decodeOctets_percent ?_
      rintro b' c' rest' same
      cases hb : hexOctet? b with
      | none =>
          obtain ⟨x, more, eq, none⟩ := head_writtenOctet escaped hb
            (writtenOctet escaped c ++ rest.flatMap (writtenOctet escaped))
          rw [List.flatMap_cons, List.flatMap_cons, eq] at same
          exact .inl ((List.cons.inj same).1 ▸ none)
      | some x =>
          have none : hexOctet? c = none := by
            cases hc : hexOctet? c with
            | none => rfl
            | some y => exact (other x y hb hc).elim
          obtain ⟨y, more, eq, none⟩ := head_writtenOctet escaped none (rest.flatMap (writtenOctet escaped))
          rw [List.flatMap_cons, List.flatMap_cons, writtenOctet_of_digit digits (by simp [hb]), eq] at same
          simp only [List.cons_append, List.nil_append, List.cons.injEq] at same
          exact .inr (same.2.1 ▸ none)
  | case4 a rest other ih =>
      by_cases first : a = 0x25
      · subst first
        rw [List.flatMap_cons, plain, List.singleton_append, ← ih]
        refine decodeOctets_percent ?_
        rintro b' c' rest' same
        cases rest with
        | nil => cases same
        | cons b more =>
            cases more with
            | cons c more => exact (other b c more rfl rfl).elim
            | nil =>
                rw [List.flatMap_singleton] at same
                rcases writtenOctet_cases escaped b with one | written
                · rw [one] at same
                  cases same
                · rw [written, encode_octet] at same
                  simp only [List.cons.injEq] at same
                  exact .inl (same.1 ▸ rfl)
      · rw [List.flatMap_cons]
        rcases writtenOctet_cases escaped a with one | written
        · rw [one, List.singleton_append, decodeOctets_other first, ih]
        · rw [written, decodeOctets_written, ih]

theorem decodeOctets_encode_plain (cs : List Char) :
    decodeOctets (Utf8.encode (encode escaped cs)) = decodeOctets (Utf8.encode cs) := by
  rw [encode_encode, decodeOctets_flatMap_written sign digits]

end unescaping

end Percent

end LanguageHost

/-! What becomes of the segments of a path. Dots only take away, and what is entered stands for the octets it
was written with: so a path that stands for as many octets as its text has lost no segment. -/
namespace LanguageHost.Url

/-- The segment is one dot or two, escaped or not. -/
def IsDots (segment : List Char) : Prop := dots segment = ['.'] ∨ dots segment = ['.', '.']

instance : DecidablePred IsDots := fun _ => inferInstanceAs (Decidable (_ ∨ _))

theorem IsDots.ne_nil {segment : List Char} (h : IsDots segment) : segment ≠ [] := by
  rintro rfl
  rcases h with one | two
  · cases one
  · cases two

/-! How many octets a text stands for. -/

def extent (cs : List Char) : Nat := (Percent.decodeOctets (Utf8.encode cs)).length

theorem extent_le (cs : List Char) : extent cs ≤ (Utf8.encode cs).length :=
  Percent.length_decodeOctets_le _

theorem extent_pos {cs : List Char} (h : cs ≠ []) : 0 < extent cs :=
  List.length_pos_iff.mpr (Percent.decodeOctets_ne_nil (Utf8.encode_ne_nil h))

theorem extent_slash (cs : List Char) : extent ('/' :: cs) = 1 + extent cs := by
  unfold extent
  rw [Percent.encode_low (by decide), Percent.decodeOctets_other (by decide), List.length_cons, Nat.add_comm]

theorem decodeOctets_slash (cs ds : List Char) : Percent.decodeOctets (Utf8.encode (cs ++ '/' :: ds)) =
    Percent.decodeOctets (Utf8.encode cs) ++ 0x2F :: Percent.decodeOctets (Utf8.encode ds) := by
  rw [Utf8.encode_append, Percent.encode_low (by decide)]
  exact Percent.decodeOctets_append (by decide) (by decide) _ _

theorem extent_append_slash (cs ds : List Char) :
    extent (cs ++ '/' :: ds) = extent cs + (1 + extent ds) := by
  unfold extent
  rw [decodeOctets_slash, List.length_append, List.length_cons, Nat.add_comm 1]

theorem isHexDigit_low {c : Char} (h : Text.isHexDigit c = true) : c.toNat < 0x80 := by
  simp only [Text.isHexDigit, Text.isDigit, Bool.or_eq_true, Bool.and_eq_true, decide_eq_true_eq,
    Char.le_def, UInt32.le_iff_toNat_le] at h
  rcases h with (⟨-, most⟩ | ⟨-, most⟩) | ⟨-, most⟩ <;> exact Nat.lt_of_le_of_lt most (by decide)

theorem isHexDigit_not_inPath {c : Char} (h : Text.isHexDigit c = true) : inPath c = false := by
  have table : ∀ n < 0x80, Text.isHexDigit (Char.ofNat n) = true → inPath (Char.ofNat n) = false := by
    decide +kernel
  have found := table c.toNat (isHexDigit_low h)
  rw [Char.ofNat_toNat] at found
  exact found h

/-- Escaping what may not stand in a path leaves what a text stands for. -/
theorem decodeOctets_encode_inPath (cs : List Char) :
    Percent.decodeOctets (Utf8.encode (Percent.encode inPath cs)) = Percent.decodeOctets (Utf8.encode cs) :=
  Percent.decodeOctets_encode_plain (by decide) (fun _ => isHexDigit_not_inPath) cs

theorem extent_encode (cs : List Char) : extent (Percent.encode inPath cs) = extent cs := by
  unfold extent
  rw [decodeOctets_encode_inPath]

/-! Texts with a slash in front of each. -/

def behindSlashes (texts : List (List Char)) : List Char := texts.flatMap ('/' :: ·)

/-- How many octets texts stand for, and the slashes in front of them. -/
def load (texts : List (List Char)) : Nat := (texts.map (1 + extent ·)).sum

theorem load_append (texts others : List (List Char)) : load (texts ++ others) = load texts + load others := by
  simp [load]

theorem extent_append_behindSlashes (text : List Char) (texts : List (List Char)) :
    extent (text ++ behindSlashes texts) = extent text + load texts := by
  induction texts generalizing text with
  | nil => simp [behindSlashes, load]
  | cons next texts ih =>
      rw [show behindSlashes (next :: texts) = '/' :: (next ++ behindSlashes texts) from rfl,
        extent_append_slash, ih]
      simp only [load, List.map_cons, List.sum_cons]
      omega

theorem extent_behindSlashes (texts : List (List Char)) : extent (behindSlashes texts) = load texts := by
  have whole := extent_append_behindSlashes [] texts
  rwa [List.nil_append, show extent [] = 0 from rfl, Nat.zero_add] at whole

/-! Cutting at slashes. -/

section slashed
variable {special : Bool}

theorem slashed_ne_nil (cs : List Char) : slashed special cs ≠ [] := by
  cases cs with
  | nil => simp [slashed]
  | cons c cs =>
      rw [slashed]
      split
      · simp
      · split <;> simp

theorem slashed_other {c : Char} (h : isSlash special c = false) (cs : List Char) :
    ∃ first rest, slashed special cs = first :: rest ∧ slashed special (c :: cs) = (c :: first) :: rest := by
  obtain ⟨first, rest, eq⟩ := List.exists_cons_of_ne_nil (@slashed_ne_nil special cs)
  exact ⟨first, rest, eq, by rw [slashed, h, eq]; rfl⟩

theorem slashed_slash {c : Char} (h : isSlash special c = true) (cs : List Char) :
    slashed special (c :: cs) = [] :: slashed special cs := by
  rw [slashed, if_pos h]

theorem slashed_append {c : Char} (h : isSlash special c = true) (cs ds : List Char) :
    slashed special (cs ++ c :: ds) = slashed special cs ++ slashed special ds := by
  induction cs with
  | nil => rw [List.nil_append, slashed_slash h]; rfl
  | cons b cs ih =>
      rw [List.cons_append]
      cases other : isSlash special b with
      | true => rw [slashed_slash other, slashed_slash other, ih, List.cons_append]
      | false =>
          obtain ⟨first, rest, eq, eq'⟩ := slashed_other other cs
          obtain ⟨first', rest', same, same'⟩ := slashed_other other (cs ++ c :: ds)
          rw [ih, eq, List.cons_append] at same
          cases same
          rw [eq', same', List.cons_append]

theorem slashed_free {cs : List Char} (free : ∀ c ∈ cs, isSlash special c = false) :
    slashed special cs = [cs] := by
  induction cs with
  | nil => rfl
  | cons c cs ih =>
      obtain ⟨first, rest, eq, eq'⟩ := slashed_other (free c List.mem_cons_self) cs
      rw [ih fun d hd => free d (List.mem_cons_of_mem _ hd)] at eq
      cases eq
      exact eq'

/-- What holds no slash goes to the segment before it. -/
theorem slashed_append_free {cs ds : List Char} (free : ∀ c ∈ ds, isSlash special c = false)
    {front : List (List Char)} {last : List Char} (cut : slashed special cs = front ++ [last]) :
    slashed special (cs ++ ds) = front ++ [last ++ ds] := by
  induction cs generalizing front last with
  | nil =>
      obtain ⟨rfl, rfl⟩ : front = [] ∧ last = [] := by
        cases front with
        | nil => exact ⟨rfl, (List.cons.inj cut).1.symm⟩
        | cons first front =>
            have none := (List.cons.inj cut).2
            simp at none
      exact slashed_free free
  | cons c cs ih =>
      cases slash : isSlash special c with
      | true =>
          rw [slashed_slash slash] at cut
          rw [List.cons_append, slashed_slash slash]
          cases front with
          | nil => exact absurd (List.cons.inj cut).2 (slashed_ne_nil cs)
          | cons first front =>
              simp only [List.cons_append, List.cons.injEq] at cut
              rw [ih cut.2, ← cut.1, List.cons_append]
      | false =>
          obtain ⟨first, rest, eq, eq'⟩ := slashed_other slash cs
          obtain ⟨first', rest', same, same'⟩ := slashed_other slash (cs ++ ds)
          rw [eq'] at cut
          rw [List.cons_append, same']
          cases front with
          | nil =>
              obtain ⟨rfl, rfl⟩ := List.cons.inj cut
              rw [@ih [] _ eq] at same
              cases same
              rfl
          | cons before front =>
              obtain ⟨rfl, rfl⟩ := List.cons.inj cut
              rw [@ih (first :: front) _ eq] at same
              cases same
              rfl

theorem isSlash_of_mem_slashed {cs segment : List Char} (there : segment ∈ slashed special cs) :
    ∀ c ∈ segment, isSlash special c = false := by
  induction cs generalizing segment with
  | nil => simp_all [slashed]
  | cons c cs ih =>
      cases slash : isSlash special c with
      | true =>
          rw [slashed_slash slash] at there
          rcases List.mem_cons.mp there with rfl | there
          · simp
          · exact ih there
      | false =>
          obtain ⟨first, rest, eq, eq'⟩ := slashed_other slash cs
          rw [eq'] at there
          rcases List.mem_cons.mp there with rfl | there
          · intro d hd
            rcases List.mem_cons.mp hd with rfl | hd
            · exact slash
            · exact ih (eq ▸ List.mem_cons_self) d hd
          · exact ih (eq ▸ List.mem_cons_of_mem _ there)

/-- The slash for which a character stands, or the character. -/
def straight (special : Bool) (c : Char) : Char := if isSlash special c then '/' else c

theorem behindSlashes_slashed (cs : List Char) :
    behindSlashes (slashed special cs) = '/' :: cs.map (straight special) := by
  induction cs with
  | nil => rfl
  | cons c cs ih =>
      cases slash : isSlash special c with
      | true =>
          rw [slashed_slash slash, show behindSlashes ([] :: slashed special cs) =
            '/' :: behindSlashes (slashed special cs) from rfl, ih, List.map_cons, straight, if_pos slash]
      | false =>
          obtain ⟨first, rest, eq, eq'⟩ := slashed_other slash cs
          rw [eq] at ih
          have tail := (List.cons.inj ih).2
          rw [eq', show behindSlashes ((c :: first) :: rest) = '/' :: c :: (first ++ behindSlashes rest) from rfl,
            List.map_cons, straight, if_neg (by simp [slash]), ← tail]
          rfl

end slashed

/-! Entering segments. -/

/-- How many octets the segments of a trail stand for, and the slashes in front of them. -/
def weight (done : List String) : Nat := load (done.map String.toList)

theorem weight_cons (s : String) (done : List String) :
    weight (s :: done) = 1 + extent s.toList + weight done := by
  simp [weight, load]

namespace Trail

/-- The path that the segments make. -/
def text (t : Trail) : List Char := behindSlashes (t.done.reverse.map String.toList)

theorem extent_text (t : Trail) : extent t.text = weight t.done := by
  rw [text, extent_behindSlashes, weight, load, load, List.map_reverse, List.map_reverse, List.sum_reverse]

/-- Enters a segment that others follow. -/
def pass (file : Bool) (t : Trail) (segment : List Char) : Trail :=
  match dots segment with
  | ['.', '.'] => t.back
  | ['.'] => t
  | _ => t.enter file segment

section pass
variable {file : Bool} {t : Trail} {segment : List Char}

theorem pass_two (two : dots segment = ['.', '.']) : t.pass file segment = t.back := by
  simp only [pass, two]

theorem pass_one (one : dots segment = ['.']) : t.pass file segment = t := by
  simp only [pass, one]

theorem pass_other (plain : ¬ IsDots segment) : t.pass file segment = t.enter file segment := by
  unfold pass
  split
  · next two => exact absurd (.inr two) plain
  · next one => exact absurd (.inl one) plain
  · rfl

theorem not_isDots (two : dots segment ≠ ['.', '.']) (one : dots segment ≠ ['.']) : ¬ IsDots segment := by
  rintro (h | h)
  · exact one h
  · exact two h

theorem enterAll_cons {rest : List (List Char)} (more : rest ≠ []) :
    enterAll file t (segment :: rest) = enterAll file (t.pass file segment) rest := by
  have last : rest.isEmpty = false := by simpa using more
  simp only [enterAll, last, Bool.false_eq_true, if_false]
  split
  · next two => rw [pass_two two]
  · next one => rw [pass_one one]
  · next two one => rw [pass_other (not_isDots two one)]

theorem enterAll_last : enterAll file t [segment] =
    if IsDots segment then (t.pass file segment).push "" else t.pass file segment := by
  simp only [enterAll, List.isEmpty_nil, if_true]
  split
  · next two => rw [if_pos (show IsDots segment from .inr two), pass_two two]
  · next one => rw [if_pos (show IsDots segment from .inl one), pass_one one]
  · next two one => rw [if_neg (not_isDots two one), pass_other (not_isDots two one)]

end pass

theorem enterAll_append {file : Bool} {t : Trail} (front : List (List Char)) {rest : List (List Char)}
    (more : rest ≠ []) : enterAll file t (front ++ rest) = enterAll file (front.foldl (pass file) t) rest := by
  induction front generalizing t with
  | nil => rfl
  | cons segment front ih => rw [List.cons_append, enterAll_cons (by simp [more]), ih, List.foldl_cons]

theorem pass_plain {t : Trail} {segment : List Char} (plain : ¬ IsDots segment) :
    t.pass false segment = t.push (String.ofList (Percent.encode inPath segment)) := by
  rw [pass_other plain]
  simp [enter]

theorem weight_back_le (t : Trail) : weight t.back.done ≤ weight t.done := by
  unfold back
  split
  · exact Nat.le_refl _
  · next s before made =>
      split
      · exact Nat.le_refl _
      · rw [made, weight_cons]
        exact Nat.le_add_left _ _

theorem weight_pass_dots {t : Trail} {segment : List Char} (h : IsDots segment) :
    weight (t.pass false segment).done ≤ weight t.done := by
  rcases h with one | two
  · rw [pass_one one]
  · rw [pass_two two]
    exact t.weight_back_le

theorem weight_push (t : Trail) (s : String) : weight (t.push s).done = 1 + extent s.toList + weight t.done :=
  weight_cons s t.done

theorem weight_pass_plain {t : Trail} {segment : List Char} (plain : ¬ IsDots segment) :
    weight (t.pass false segment).done = 1 + extent segment + weight t.done := by
  rw [pass_plain plain, weight_push, String.toList_ofList, extent_encode]

theorem weight_pass_le (t : Trail) (segment : List Char) :
    weight (t.pass false segment).done ≤ weight t.done + (1 + extent segment) := by
  by_cases h : IsDots segment
  · exact Nat.le_trans (weight_pass_dots h) (Nat.le_add_right _ _)
  · rw [weight_pass_plain h]
    omega

/-- Segments add at most what they stand for, and less when there are dots among them. -/
theorem weight_enterAll_le (t : Trail) (segments : List (List Char)) :
    weight (enterAll false t segments).done ≤ weight t.done + load segments := by
  induction segments generalizing t with
  | nil => exact Nat.le_refl _
  | cons segment rest ih =>
      have whole : load (segment :: rest) = 1 + extent segment + load rest := rfl
      cases rest with
      | cons next rest =>
          rw [enterAll_cons (by simp)]
          have most := ih (t.pass false segment)
          have step := t.weight_pass_le segment
          omega
      | nil =>
          rw [enterAll_last]
          split
          · next h =>
              have step := weight_pass_dots (t := t) h
              have some := extent_pos h.ne_nil
              rw [weight_push]
              have none : extent "".toList = 0 := rfl
              omega
          · have step := t.weight_pass_le segment
            omega

theorem weight_enterAll_lt (t : Trail) {segments : List (List Char)} (h : ∃ s ∈ segments, IsDots s) :
    weight (enterAll false t segments).done < weight t.done + load segments := by
  induction segments generalizing t with
  | nil => simp at h
  | cons segment rest ih =>
      have whole : load (segment :: rest) = 1 + extent segment + load rest := rfl
      cases rest with
      | cons next rest =>
          rw [enterAll_cons (by simp)]
          by_cases first : IsDots segment
          · have most := (t.pass false segment).weight_enterAll_le (next :: rest)
            have step := weight_pass_dots (t := t) first
            omega
          · obtain ⟨s, there, dots⟩ := h
            have later := (List.mem_cons.mp there).resolve_left (by rintro rfl; exact first dots)
            have most := ih (t.pass false segment) ⟨s, later, dots⟩
            have step := t.weight_pass_le segment
            omega
      | nil =>
          obtain ⟨s, there, dots⟩ := h
          obtain rfl := List.mem_singleton.mp there
          rw [enterAll_last, if_pos dots, weight_push]
          have step := weight_pass_dots (t := t) dots
          have some := extent_pos dots.ne_nil
          have none : extent "".toList = 0 := rfl
          omega

theorem enterAll_plain {t : Trail} {segments : List (List Char)} (plain : ∀ s ∈ segments, ¬ IsDots s) :
    (enterAll false t segments).done =
      (segments.map fun s => String.ofList (Percent.encode inPath s)).reverse ++ t.done := by
  induction segments generalizing t with
  | nil => rfl
  | cons segment rest ih =>
      have first := plain segment List.mem_cons_self
      cases rest with
      | nil =>
          rw [enterAll_last, if_neg first, pass_plain first]
          rfl
      | cons next rest =>
          rw [enterAll_cons (by simp), ih fun s hs => plain s (List.mem_cons_of_mem _ hs), pass_plain first,
            List.map_cons (l := next :: rest), List.reverse_cons, List.append_assoc]
          rfl

/-- A segment is entered above those that are there, or two dots take the uppermost of them. -/
theorem pass_above {t : Trail} {above below : List String} (made : t.done = above ++ below)
    (segment : List Char) : (∃ above', (t.pass false segment).done = above' ++ below) ∨
      IsDots segment ∧ (t.pass false segment).done = below.tail := by
  by_cases h : IsDots segment
  · rcases h with one | two
    · rw [pass_one one]
      exact .inl ⟨above, made⟩
    · rw [pass_two two]
      unfold back
      split
      · exact .inl ⟨above, made⟩
      · next s before some =>
          split
          · exact .inl ⟨above, made⟩
          · rw [some] at made
            cases above with
            | nil =>
                refine .inr ⟨.inr two, ?_⟩
                rw [show below = s :: before from made.symm]
                rfl
            | cons _ above => exact .inl ⟨above, (List.cons.inj made).2⟩
  · rw [pass_plain h]
    exact .inl ⟨_ :: above, congrArg (_ :: ·) made⟩

/-- Either the segments below stay, or all that is entered stands on fewer of them. -/
theorem kept_or_light {t : Trail} {above below : List String} (made : t.done = above ++ below)
    (segments : List (List Char)) : below <:+ (enterAll false t segments).done ∨
      weight (enterAll false t segments).done < weight below.tail + load segments := by
  induction segments generalizing t above with
  | nil => exact .inl ⟨above, made.symm⟩
  | cons segment rest ih =>
      have whole : load (segment :: rest) = 1 + extent segment + load rest := rfl
      cases rest with
      | cons next rest =>
          rw [enterAll_cons (by simp)]
          rcases pass_above made segment with ⟨above', made'⟩ | ⟨-, taken⟩
          · rcases ih made' with kept | light
            · exact .inl kept
            · exact .inr (by omega)
          · have most := (t.pass false segment).weight_enterAll_le (next :: rest)
            rw [taken] at most
            exact .inr (by omega)
      | nil =>
          rw [enterAll_last]
          rcases pass_above made segment with ⟨above', made'⟩ | ⟨dots, taken⟩
          · left
            split
            · exact ⟨"" :: above', congrArg ("" :: ·) made'.symm⟩
            · exact ⟨above', made'.symm⟩
          · right
            have some := extent_pos dots.ne_nil
            rw [if_pos dots, weight_push, taken, show extent "".toList = 0 from rfl]
            omega

end Trail

end LanguageHost.Url
