import LanguageHost.Json.Basic
import LanguageHost.Text.Blank

/-!
Numerals of JSON text. An integer of at most 64 bits is kept as it is. Any other numeral is the first
digits that fit 64 bits, rounded to a float, times or divided by the float nearest to the power of ten.
-/
namespace LanguageHost.Json

/-- The largest number of 64 bits. -/
def wordMax : Nat := 0xffffffffffffffff

/-- The leading digits as long as they make a number of 64 bits: that number, how many digits were
taken, and how many were left. -/
def significand (start : Nat) (digits : List Char) : Nat × Nat × Nat :=
  match digits with
  | [] => (start, 0, 0)
  | c :: cs =>
    let n := start * 10 + Text.digitValue c
    if n ≤ wordMax then
      let (m, taken, left) := significand n cs
      (m, taken + 1, left)
    else (start, 0, digits.length)

/-- The parts of a numeral: sign, digits before and after the point, and the exponent with its sign. -/
structure Numeral where
  negative : Bool
  whole : List Char
  fraction : Option (List Char)
  exponent : Option (Bool × List Char)

namespace Numeral

/-- Takes a numeral off the front of a text. A zero stands alone, and a point or an exponent mark is
followed by a digit. -/
def next? (cs : List Char) : Option (Numeral × List Char) := do
  let (negative, cs) := match cs with
    | '-' :: rest => (true, rest)
    | _ => (false, cs)
  let whole := cs.takeWhile Text.isDigit
  let cs := cs.dropWhile Text.isDigit
  match whole with
  | [] => none
  | '0' :: _ :: _ => none
  | _ =>
    let (fraction, cs) ← match cs with
      | '.' :: rest =>
        if (rest.takeWhile Text.isDigit).isEmpty then none
        else some (some (rest.takeWhile Text.isDigit), rest.dropWhile Text.isDigit)
      | _ => some (none, cs)
    let (exponent, cs) ← match cs with
      | c :: rest =>
        if c = 'e' ∨ c = 'E' then
          let (down, rest) := match rest with
            | '+' :: r => (false, r)
            | '-' :: r => (true, r)
            | _ => (false, rest)
          if (rest.takeWhile Text.isDigit).isEmpty then none
          else some (some (down, rest.takeWhile Text.isDigit), rest.dropWhile Text.isDigit)
        else some (none, cs)
      | [] => some (none, cs)
    pure (⟨negative, whole, fraction, exponent⟩, cs)

/-- The nearest float to a power of ten, the power being at most 308. -/
def powerOfTen (power : Nat) : Scaled :=
  (BinaryFormat.double.roundDecimal? 1 power).getD default

/-- The product of two magnitudes to the nearest float; none when it is too large. -/
def times? (a b : Scaled) : Option Scaled :=
  let (m, d) := Binary64.quotient a
  let (n, e) := Binary64.quotient b
  BinaryFormat.double.round? (m * n) (d * e)

/-- The quotient of two magnitudes to the nearest float. -/
def ratio (a b : Scaled) : Scaled :=
  let (m, d) := Binary64.quotient a
  let (n, e) := Binary64.quotient b
  (BinaryFormat.double.round? (m * e) (d * n)).getD default

/-- The float that `digits * 10 ^ power` is read as; none when it is too large. -/
def scale? (digits : Nat) (power : Int) : Option Scaled :=
  match BinaryFormat.double.round? digits 1 with
  | none => none
  | some s =>
    if s.mantissa = 0 then some s
    else if 308 < power then none
    else if 0 ≤ power then times? s (powerOfTen power.toNat)
    else if -308 ≤ power then some (ratio s (powerOfTen (-power).toNat))
    else
      let s := ratio s (powerOfTen 308)
      if -616 ≤ power then some (ratio s (powerOfTen (-power - 308).toNat))
      else some ⟨0, BinaryFormat.double.least⟩

/-- An exponent of more than 31 bits counts as one beyond every float. -/
def exponentValue (digits : List Char) : Nat := min (Text.numeral 10 digits) 0x7fffffff

/-- The value of the numeral; none when it is too large for a float. -/
def value? (n : Numeral) : Option Json :=
  let (whole, _, left) := significand 0 n.whole
  if n.fraction.isNone ∧ n.exponent.isNone ∧ left = 0 then
    if n.negative then
      if whole = 0 ∨ whole > 0x8000000000000000 then
        (BinaryFormat.double.round? whole 1).map fun s => .float (Binary64.ofScaled true s)
      else some (.int (-(whole : Int)))
    else some (.int whole)
  else
    let (digits, taken, _) := significand whole (n.fraction.getD [])
    let power : Int := match n.exponent with
      | none => 0
      | some (down, ds) => if down then -(exponentValue ds : Int) else exponentValue ds
    (scale? digits ((left : Int) - taken + power)).map fun s =>
      .float (Binary64.ofScaled n.negative s)

end Numeral

end LanguageHost.Json
