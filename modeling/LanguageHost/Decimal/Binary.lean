/-!
Binary floating-point numbers as exact integers: decoding, and rounding a quotient of naturals to the
nearest number of a format, ties to the even mantissa, with gradual underflow.
-/
namespace LanguageHost

/-- A binary format: mantissas below `2 ^ precision`, least exponent `least`, and `top`, the exponent
of the largest numbers. -/
structure BinaryFormat where
  precision : Nat
  least : Int
  top : Int

def BinaryFormat.double : BinaryFormat := ⟨53, -1074, 971⟩

def BinaryFormat.single : BinaryFormat := ⟨24, -149, 104⟩

/-- The magnitude `mantissa * 2 ^ exponent`. -/
structure Scaled where
  mantissa : Nat
  exponent : Int
deriving DecidableEq, Inhabited

namespace BinaryFormat

/-- Numerator and denominator of `num / den` in units of `2 ^ q`. -/
def inUnits (num den : Nat) (q : Int) : Nat × Nat :=
  if 0 ≤ q then (num, den * Nat.pow 2 q.toNat) else (num * Nat.pow 2 (-q).toNat, den)

/-- The quotient to the nearest integer, ties to even. -/
def nearest (num den : Nat) : Nat :=
  let d := num / den
  let r := num % den
  if 2 * r > den ∨ (2 * r = den ∧ d % 2 = 1) then d + 1 else d

/-- The exponent at which the quotient has a full mantissa, or the least one. -/
def exponentFor (f : BinaryFormat) (num den : Nat) : Int :=
  let guess := (num.log2 : Int) - (den.log2 : Int) - (f.precision : Int)
  let full (q : Int) : Bool :=
    let (n, d) := inUnits num den q
    n / d < Nat.pow 2 f.precision
  let q := if full guess then guess else if full (guess + 1) then guess + 1 else guess + 2
  max f.least q

/-- The number of the format nearest to `num / den`; none when that lies beyond the largest. -/
def round? (f : BinaryFormat) (num den : Nat) : Option Scaled :=
  if num = 0 then some ⟨0, f.least⟩
  else
    let q := f.exponentFor num den
    let (n, d) := inUnits num den q
    let m := nearest n d
    let s := if m = Nat.pow 2 f.precision then ⟨Nat.pow 2 (f.precision - 1), q + 1⟩ else ⟨m, q⟩
    if s.exponent > f.top then none else some s

/-- The number of the format nearest to `digits * 10 ^ power`. -/
def roundDecimal? (f : BinaryFormat) (digits : Nat) (power : Int) : Option Scaled :=
  if 0 ≤ power then f.round? (digits * Nat.pow 10 power.toNat) 1
  else f.round? digits (Nat.pow 10 (-power).toNat)

end BinaryFormat

/-- A number of the format with 53-bit mantissas, by its 64 bits. -/
structure Binary64 where
  bits : UInt64
deriving DecidableEq, Inhabited, Repr

namespace Binary64

def isNegative (x : Binary64) : Bool := x.bits ≥ 0x8000000000000000

def biasedExponent (x : Binary64) : Nat := (x.bits.toNat / 0x10000000000000) % 2048

def fraction (x : Binary64) : Nat := x.bits.toNat % 0x10000000000000

def isFinite (x : Binary64) : Bool := x.biasedExponent < 2047

def magnitude (x : Binary64) : Scaled :=
  if x.biasedExponent = 0 then ⟨x.fraction, -1074⟩
  else ⟨x.fraction + 0x10000000000000, (x.biasedExponent : Int) - 1075⟩

def signBit (negative : Bool) : Nat := if negative then 0x8000000000000000 else 0

/-- The number with this sign and magnitude, the magnitude being one of the format. -/
def ofScaled (negative : Bool) (s : Scaled) : Binary64 :=
  let low :=
    if s.mantissa < 0x10000000000000 then s.mantissa
    else (s.exponent + 1075).toNat * 0x10000000000000 + (s.mantissa - 0x10000000000000)
  ⟨UInt64.ofNat (signBit negative + low)⟩

def infinity (negative : Bool) : Binary64 := ⟨UInt64.ofNat (signBit negative + 2047 * 0x10000000000000)⟩

def nan : Binary64 := ⟨0x7FF8000000000000⟩

def zero (negative : Bool) : Binary64 := ⟨UInt64.ofNat (signBit negative)⟩

/-- The nearest number to an integer. -/
def ofInt (n : Int) : Binary64 :=
  match BinaryFormat.double.round? n.natAbs 1 with
  | some s => ofScaled (n < 0) s
  | none => infinity (n < 0)

/-- Numerator and denominator of a magnitude. -/
def quotient (s : Scaled) : Nat × Nat :=
  if 0 ≤ s.exponent then (s.mantissa * Nat.pow 2 s.exponent.toNat, 1)
  else (s.mantissa, Nat.pow 2 (-s.exponent).toNat)

/-- A magnitude rounded to 24 bits and held exactly; none beyond the largest such number. -/
def toSingle? (x : Binary64) : Option Scaled :=
  let (n, d) := quotient x.magnitude
  BinaryFormat.single.round? n d

/-- A 24-bit number held exactly in the wider format. -/
def ofSingle (negative : Bool) (s : Scaled) : Binary64 :=
  let (n, d) := quotient s
  match BinaryFormat.double.round? n d with
  | some t => ofScaled negative t
  | none => infinity negative

end Binary64

end LanguageHost
