import LanguageHost.Percent
import LanguageHost.Proofs.Text.Utf8

/-! Escaped text is read back. `decode?` undoes `encode` whenever the percent sign is among the characters
that are escaped, and what `encode` writes holds none of the others. -/
namespace LanguageHost.Percent

theorem hexCapital_digit : ∀ n < 16, (hexCapital n).toNat < 0x80 ∧
    Text.isHexDigit (hexCapital n) = true ∧ Text.digitValue (hexCapital n) = n := by
  decide

theorem hexOctet?_hexCapital {n : Nat} (h : n < 16) :
    hexOctet? (UInt8.ofNat (hexCapital n).toNat) = some n := by
  obtain ⟨low, digit, value⟩ := hexCapital_digit n h
  have octet : (hexCapital n).toNat < 256 := by omega
  have below : UInt8.ofNat (hexCapital n).toNat < 0x80 := by
    rw [Utf8.octet_lt octet]
    exact low
  simp only [hexOctet?, Utf8.toNat_octet octet, Char.ofNat_toNat, below, digit, value, and_self,
    if_true]

theorem encode_low {c : Char} (h : c.toNat < 0x80) (cs : List Char) :
    Utf8.encode (c :: cs) = UInt8.ofNat c.toNat :: Utf8.encode cs := by
  have one : String.utf8EncodeChar c = [UInt8.ofNat c.toNat] := by
    unfold String.utf8EncodeChar
    exact if_pos (Nat.le_of_lt_succ h)
  rw [Utf8.encode_cons, one, List.singleton_append]

theorem decodeOctets_octet (b : UInt8) (rest : List Char) :
    decodeOctets (Utf8.encode (octet b ++ rest)) = b :: decodeOctets (Utf8.encode rest) := by
  have bound : b.toNat < 256 := b.toNat_lt
  have high : b.toNat / 16 < 16 := by omega
  have low : b.toNat % 16 < 16 := by omega
  simp only [octet, List.cons_append, List.nil_append]
  rw [encode_low (by decide), encode_low (hexCapital_digit _ high).1,
    encode_low (hexCapital_digit _ low).1, show UInt8.ofNat '%'.toNat = 0x25 from rfl, decodeOctets,
    hexOctet?_hexCapital high, hexOctet?_hexCapital low]
  simp only [show b.toNat / 16 * 16 + b.toNat % 16 = b.toNat by omega, UInt8.ofNat_toNat]

theorem decodeOctets_octets (bs : Octets) (rest : List Char) :
    decodeOctets (Utf8.encode (bs.flatMap octet ++ rest)) = bs ++ decodeOctets (Utf8.encode rest) := by
  induction bs with
  | nil => rfl
  | cons b bs ih =>
    rw [List.flatMap_cons, List.append_assoc, decodeOctets_octet, ih, List.cons_append]

theorem decodeOctets_other {b : UInt8} (h : b ≠ 0x25) (bs : Octets) :
    decodeOctets (b :: bs) = b :: decodeOctets bs := by
  rw [decodeOctets]
  rintro _ _ _ rfl
  exact absurd rfl h

theorem decodeOctets_encodeChar {escaped : Char → Bool} (percent : escaped '%' = true) (c : Char)
    (rest : List Char) :
    decodeOctets (Utf8.encode (encodeChar escaped c ++ rest)) =
      String.utf8EncodeChar c ++ decodeOctets (Utf8.encode rest) := by
  rw [encodeChar]
  split
  · next plain =>
    have other : UInt8.ofNat c.toNat ≠ 0x25 := by
      intro same
      have sign : c = '%' := by
        apply Char.toNat_inj.mp
        rw [← Utf8.toNat_octet (show c.toNat < 256 by omega), same]
        rfl
      simp [sign, percent] at plain
    have one := encode_low plain.1 []
    rw [Utf8.encode_cons, Utf8.encode, List.flatMap_nil, List.append_nil] at one
    rw [List.singleton_append, encode_low plain.1, decodeOctets_other other, one,
      List.singleton_append]
  · exact decodeOctets_octets _ _

theorem decodeOctets_encode {escaped : Char → Bool} (percent : escaped '%' = true)
    (cs : List Char) : decodeOctets (Utf8.encode (encode escaped cs)) = Utf8.encode cs := by
  induction cs with
  | nil => rfl
  | cons c cs ih =>
    rw [encode, List.flatMap_cons, decodeOctets_encodeChar percent, ← encode, ih, Utf8.encode_cons]

theorem decode?_encode {escaped : Char → Bool} (percent : escaped '%' = true) (cs : List Char) :
    decode? (encode escaped cs) = some cs := by
  rw [decode?, decodeOctets_encode percent, Utf8.decode_encode]

theorem decodeOctets_of_not_mem {bs : Octets} (h : 0x25 ∉ bs) : decodeOctets bs = bs := by
  induction bs with
  | nil => rfl
  | cons b bs ih =>
    simp only [List.mem_cons, not_or] at h
    rw [decodeOctets_other (Ne.symm h.1), ih h.2]

/-- Text without a percent sign stands for itself. -/
theorem decode?_of_not_mem {cs : List Char} (h : '%' ∉ cs) : decode? cs = some cs := by
  have octets : 0x25 ∉ Utf8.encode cs := fun sign =>
    h (Utf8.mem_of_mem_encode sign (by decide) (by decide))
  rw [decode?, decodeOctets_of_not_mem octets, Utf8.decode_encode]

theorem decodeOctets_ne_nil {bs : Octets} (h : bs ≠ []) : decodeOctets bs ≠ [] := by
  unfold decodeOctets
  split
  · contradiction
  · split <;> exact List.cons_ne_nil _ _
  · exact List.cons_ne_nil _ _

/-- No text that is not empty stands for the empty one. -/
theorem decode?_ne_nil {cs text : List Char} (h : cs ≠ []) (decoded : decode? cs = some text) :
    text ≠ [] := by
  unfold decode? Utf8.decode at decoded
  split at decoded
  · next none => exact absurd none (decodeOctets_ne_nil (Utf8.encode_ne_nil h))
  · split at decoded
    · cases decoded
    · obtain ⟨rest, -, rfl⟩ := Option.map_eq_some_iff.mp decoded
      exact List.cons_ne_nil _ _

/-- What is written is ASCII that needs no escape, or a part of one. -/
theorem mem_encode {escaped : Char → Bool} {cs : List Char} {c : Char} (h : c ∈ encode escaped cs) :
    c.toNat < 0x80 ∧ (escaped c = false ∨ c = '%' ∨ Text.isHexDigit c = true) := by
  obtain ⟨d, -, written⟩ := List.mem_flatMap.mp h
  rw [encodeChar] at written
  split at written
  · next plain =>
    obtain rfl := List.mem_singleton.mp written
    exact ⟨plain.1, .inl (by simpa using plain.2)⟩
  · obtain ⟨b, -, part⟩ := List.mem_flatMap.mp written
    have bound : b.toNat < 256 := b.toNat_lt
    simp only [octet, List.mem_cons, List.not_mem_nil, or_false] at part
    rcases part with rfl | rfl | rfl
    · exact ⟨by decide, .inr (.inl rfl)⟩
    · have digit := hexCapital_digit (b.toNat / 16) (by omega)
      exact ⟨digit.1, .inr (.inr digit.2.1)⟩
    · have digit := hexCapital_digit (b.toNat % 16) (by omega)
      exact ⟨digit.1, .inr (.inr digit.2.1)⟩

theorem not_mem_encode {escaped : Char → Bool} {c : Char} (h : escaped c = true) (sign : c ≠ '%')
    (digit : Text.isHexDigit c = false) (cs : List Char) : c ∉ encode escaped cs := by
  intro written
  rcases (mem_encode written).2 with plain | same | hex
  · simp [h] at plain
  · exact sign same
  · simp [digit] at hex

/-- A character that is no part of an escape was there before. -/
theorem mem_of_mem_encode {escaped : Char → Bool} {cs : List Char} {c : Char}
    (h : c ∈ encode escaped cs) (sign : c ≠ '%') (digit : Text.isHexDigit c = false) : c ∈ cs := by
  obtain ⟨d, there, written⟩ := List.mem_flatMap.mp h
  rw [encodeChar] at written
  split at written
  · obtain rfl := List.mem_singleton.mp written
    exact there
  · obtain ⟨b, -, part⟩ := List.mem_flatMap.mp written
    have bound : b.toNat < 256 := b.toNat_lt
    simp only [octet, List.mem_cons, List.not_mem_nil, or_false] at part
    rcases part with rfl | rfl | rfl
    · exact absurd rfl sign
    · simp [(hexCapital_digit (b.toNat / 16) (by omega)).2.1] at digit
    · simp [(hexCapital_digit (b.toNat % 16) (by omega)).2.1] at digit

theorem encode_ne_nil {escaped : Char → Bool} {cs : List Char} (h : cs ≠ []) :
    encode escaped cs ≠ [] := by
  cases cs with
  | nil => contradiction
  | cons c cs =>
    have first : encodeChar escaped c ≠ [] := by
      rw [encodeChar]
      split
      · simp
      · intro none
        have := List.flatMap_eq_nil_iff.mp none
        cases octets : String.utf8EncodeChar c with
        | nil => exact String.utf8EncodeChar_ne_nil octets
        | cons b bs => simpa [octet] using this b (by simp [octets])
    rw [encode, List.flatMap_cons]
    simp [first]

end LanguageHost.Percent
