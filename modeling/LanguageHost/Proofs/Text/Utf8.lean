import LanguageHost.Text.Utf8

/-! Text survives its UTF-8 form: what `encode` writes, `decode` reads back. -/
namespace LanguageHost.Utf8

theorem toNat_octet {n : Nat} (h : n < 256) : (UInt8.ofNat n).toNat = n := by
  simpa using Nat.mod_eq_of_lt h

theorem octet_lt {n : Nat} (h : n < 256) (bound : UInt8) :
    (UInt8.ofNat n < bound) = (n < bound.toNat) := by
  rw [UInt8.lt_iff_toNat_lt, toNat_octet h]

theorem le_octet {n : Nat} (h : n < 256) (bound : UInt8) :
    (bound ≤ UInt8.ofNat n) = (bound.toNat ≤ n) := by
  rw [UInt8.le_iff_toNat_le, toNat_octet h]

theorem continuation?_octet {x : Nat} (h : x < 0x40) :
    continuation? (UInt8.ofNat (x + 0x80)) = some x := by
  have octet : x + 0x80 < 256 := by omega
  simp only [continuation?, le_octet octet, octet_lt octet, toNat_octet octet]
  rw [if_pos (by simp; omega), Nat.add_sub_cancel]

theorem scalar?_toNat (c : Char) {least : Nat} (h : least ≤ c.toNat) :
    scalar? least c.toNat = some c := by
  have valid : c.toNat.isValidChar := c.valid
  rw [scalar?, if_pos ⟨h, valid⟩, Char.ofNat_toNat]

/-! The forms of one to four octets. -/

variable {a x y z : Nat} {rest : Octets}

theorem next?_one (h : a < 0x80) : next? (UInt8.ofNat a :: rest) = some (Char.ofNat a, rest) := by
  rw [next?.eq_def]
  simp only [octet_lt (show a < 256 by omega), toNat_octet (show a < 256 by omega)]
  exact if_pos (by simpa using h)

theorem next?_two (h : a < 0x20) (hx : x < 0x40) :
    next? (UInt8.ofNat (a + 0xC0) :: UInt8.ofNat (x + 0x80) :: rest) =
      (scalar? 0x80 (a * 64 + x)).map fun c => (c, rest) := by
  have octet : a + 0xC0 < 256 := by omega
  rw [next?.eq_def]
  simp only [octet_lt octet, toNat_octet octet, continuation?_octet hx]
  rw [if_neg (by simp), if_neg (by simp), if_pos (by simp; omega)]
  cases h : scalar? 0x80 (a * 64 + x) <;> simp [h]

theorem next?_three (h : a < 0x10) (hx : x < 0x40) (hy : y < 0x40) :
    next? (UInt8.ofNat (a + 0xE0) :: UInt8.ofNat (x + 0x80) :: UInt8.ofNat (y + 0x80) :: rest) =
      (scalar? 0x800 ((a * 64 + x) * 64 + y)).map fun c => (c, rest) := by
  have octet : a + 0xE0 < 256 := by omega
  rw [next?.eq_def]
  simp only [octet_lt octet, toNat_octet octet, continuation?_octet hx, continuation?_octet hy]
  rw [if_neg (by simp), if_neg (by simp), if_neg (by simp), if_pos (by simp; omega)]
  cases h : scalar? 0x800 ((a * 64 + x) * 64 + y) <;> simp [h]

theorem next?_four (h : a < 0x8) (hx : x < 0x40) (hy : y < 0x40) (hz : z < 0x40) :
    next? (UInt8.ofNat (a + 0xF0) :: UInt8.ofNat (x + 0x80) :: UInt8.ofNat (y + 0x80) ::
        UInt8.ofNat (z + 0x80) :: rest) =
      (scalar? 0x10000 (((a * 64 + x) * 64 + y) * 64 + z)).map fun c => (c, rest) := by
  have octet : a + 0xF0 < 256 := by omega
  rw [next?.eq_def]
  simp only [octet_lt octet, toNat_octet octet, continuation?_octet hx, continuation?_octet hy,
    continuation?_octet hz]
  rw [if_neg (by simp), if_neg (by simp), if_neg (by simp), if_neg (by simp),
    if_pos (by simp; omega)]
  cases h : scalar? 0x10000 (((a * 64 + x) * 64 + y) * 64 + z) <;> simp [h]

theorem next?_encodeChar (c : Char) (rest : Octets) :
    next? (String.utf8EncodeChar c ++ rest) = some (c, rest) := by
  have bound : c.toNat < 0x110000 := by
    have valid := c.valid
    simp only [UInt32.isValidChar, Nat.isValidChar] at valid
    simp only [Char.toNat]
    omega
  unfold String.utf8EncodeChar
  simp only [show c.val.toNat = c.toNat from rfl]
  split
  · rw [List.singleton_append, next?_one (by omega), Char.ofNat_toNat]
  split
  · simp only [List.cons_append, List.nil_append]
    rw [next?_two (by omega) (by omega),
      show c.toNat / 64 % 0x20 * 64 + c.toNat % 0x40 = c.toNat by omega, scalar?_toNat c (by omega)]
    rfl
  split
  · simp only [List.cons_append, List.nil_append]
    rw [next?_three (by omega) (by omega) (by omega),
      show (c.toNat / 4096 % 0x10 * 64 + c.toNat / 64 % 0x40) * 64 + c.toNat % 0x40 = c.toNat by
        omega, scalar?_toNat c (by omega)]
    rfl
  · simp only [List.cons_append, List.nil_append]
    rw [next?_four (by omega) (by omega) (by omega) (by omega),
      show ((c.toNat / 262144 % 0x08 * 64 + c.toNat / 4096 % 0x40) * 64 + c.toNat / 64 % 0x40) * 64 +
        c.toNat % 0x40 = c.toNat by omega, scalar?_toNat c (by omega)]
    rfl

theorem decode_of_next? {bs rest : Octets} {c : Char} (h : next? bs = some (c, rest)) :
    decode bs = (decode rest).map (c :: ·) := by
  cases bs with
  | nil => simp [next?] at h
  | cons b bs =>
    rw [decode.eq_def]
    simp only []
    split
    · next h' => cases h.symm.trans h'
    · next h' => cases h.symm.trans h'; rfl

theorem encode_cons (c : Char) (cs : List Char) :
    encode (c :: cs) = String.utf8EncodeChar c ++ encode cs := List.flatMap_cons

theorem encode_append (cs ds : List Char) : encode (cs ++ ds) = encode cs ++ encode ds :=
  List.flatMap_append

theorem decode_encode (cs : List Char) : decode (encode cs) = some cs := by
  induction cs with
  | nil => simp [encode, decode]
  | cons c cs ih => rw [encode_cons, decode_of_next? (next?_encodeChar c (encode cs)), ih]; rfl

theorem toString?_ofString (s : String) : toString? (ofString s) = some s := by
  simp [toString?, ofString, decode_encode]

/-- Only the octet of a character of the first 128 is below 128. -/
theorem toNat_of_mem_encodeChar {c : Char} {b : UInt8} (h : b ∈ String.utf8EncodeChar c)
    (low : b.toNat < 0x80) : b.toNat = c.toNat := by
  unfold String.utf8EncodeChar at h
  simp only [show c.val.toNat = c.toNat from rfl] at h
  split at h
  · next small =>
    obtain rfl := List.mem_singleton.mp h
    exact toNat_octet (by omega)
  · exfalso
    split at h
    · simp only [List.mem_cons, List.not_mem_nil, or_false] at h
      rcases h with rfl | rfl <;> rw [toNat_octet (by omega)] at low <;> omega
    split at h
    · simp only [List.mem_cons, List.not_mem_nil, or_false] at h
      rcases h with rfl | rfl | rfl <;> rw [toNat_octet (by omega)] at low <;> omega
    · simp only [List.mem_cons, List.not_mem_nil, or_false] at h
      rcases h with rfl | rfl | rfl | rfl <;> rw [toNat_octet (by omega)] at low <;> omega

theorem mem_of_mem_encode {cs : List Char} {c : Char} {b : UInt8} (h : b ∈ encode cs)
    (low : b.toNat < 0x80) (same : c.toNat = b.toNat) : c ∈ cs := by
  obtain ⟨d, hd, hb⟩ := List.mem_flatMap.mp h
  obtain rfl : c = d := Char.toNat_inj.mp (same.trans (toNat_of_mem_encodeChar hb low))
  exact hd

theorem encode_ne_nil {cs : List Char} (h : cs ≠ []) : encode cs ≠ [] := by
  cases cs with
  | nil => contradiction
  | cons c cs => simp [encode_cons, String.utf8EncodeChar_ne_nil]

end LanguageHost.Utf8
