/-!
The UTF-8 form of text over lists of octets. `encode` writes; `decode` accepts exactly the shortest
forms of scalar values.
-/
namespace LanguageHost

/-- A string of octets. -/
abbrev Octets := List UInt8

namespace Utf8

def encode (cs : List Char) : Octets := cs.flatMap String.utf8EncodeChar

def ofString (s : String) : Octets := encode s.toList

def size (s : String) : Nat := s.utf8ByteSize

/-- The six payload bits of a continuation octet. -/
def continuation? (b : UInt8) : Option Nat :=
  if 0x80 ≤ b ∧ b < 0xC0 then some (b.toNat - 0x80) else none

/-- The scalar value, unless it is a surrogate, too large, or below the least value of its length. -/
def scalar? (least n : Nat) : Option Char :=
  if least ≤ n ∧ n.isValidChar then some (Char.ofNat n) else none

/-- The first character and the octets after it. -/
def next? : Octets → Option (Char × Octets)
  | [] => none
  | a :: rest =>
    if a < 0x80 then some (Char.ofNat a.toNat, rest)
    else if a < 0xC0 then none
    else if a < 0xE0 then
      match rest with
      | b :: rest => do
        let x ← continuation? b
        let c ← scalar? 0x80 ((a.toNat - 0xC0) * 64 + x)
        pure (c, rest)
      | _ => none
    else if a < 0xF0 then
      match rest with
      | b :: c :: rest => do
        let x ← continuation? b
        let y ← continuation? c
        let d ← scalar? 0x800 (((a.toNat - 0xE0) * 64 + x) * 64 + y)
        pure (d, rest)
      | _ => none
    else if a < 0xF8 then
      match rest with
      | b :: c :: d :: rest => do
        let x ← continuation? b
        let y ← continuation? c
        let z ← continuation? d
        let e ← scalar? 0x10000 ((((a.toNat - 0xF0) * 64 + x) * 64 + y) * 64 + z)
        pure (e, rest)
      | _ => none
    else none

theorem next?_shorter {bs rest : Octets} {c : Char} (h : next? bs = some (c, rest)) :
    rest.length < bs.length := by
  unfold next? at h
  split at h
  · simp at h
  · split at h
    · simp at h; simp [← h.2]
    · split at h
      · simp at h
      · split at h
        · split at h
          · simp only [bind, Option.bind_eq_some_iff, pure, Option.some.injEq, Prod.mk.injEq] at h
            obtain ⟨_, _, _, _, _, rfl⟩ := h
            simp only [List.length_cons]; omega
          · simp at h
        · split at h
          · split at h
            · simp only [bind, Option.bind_eq_some_iff, pure, Option.some.injEq, Prod.mk.injEq] at h
              obtain ⟨_, _, _, _, _, _, _, rfl⟩ := h
              simp only [List.length_cons]; omega
            · simp at h
          · split at h
            · split at h
              · simp only [bind, Option.bind_eq_some_iff, pure, Option.some.injEq, Prod.mk.injEq] at h
                obtain ⟨_, _, _, _, _, _, _, _, _, rfl⟩ := h
                simp only [List.length_cons]; omega
              · simp at h
            · simp at h

/-- The text that the octets write; none when they are not UTF-8. -/
def decode (bs : Octets) : Option (List Char) :=
  match bs with
  | [] => some []
  | b :: bs' =>
    match h : next? (b :: bs') with
    | none => none
    | some (c, rest) =>
      have : rest.length < bs'.length + 1 := next?_shorter h
      (decode rest).map (c :: ·)
termination_by bs.length

def toString? (bs : Octets) : Option String := (decode bs).map String.ofList

/-- The text with a mark in place of every octet that is not part of a character. -/
def lossyFrom (fuel : Nat) (bs : Octets) : List Char :=
  match fuel, bs with
  | 0, _ | _, [] => []
  | fuel + 1, b :: rest =>
    match next? (b :: rest) with
    | some (c, rest) => c :: lossyFrom fuel rest
    | none => '\uFFFD' :: lossyFrom fuel rest

def lossy (bs : Octets) : String := String.ofList (lossyFrom bs.length bs)

end Utf8

end LanguageHost
