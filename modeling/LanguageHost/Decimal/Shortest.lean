import LanguageHost.Decimal.Binary

/-!
The shortest decimal text of a number. For one digit, two digits and so on up to seventeen, the two
neighbours of the value on that decimal grid are tried; the first grid with a neighbour that rounds
back to the value wins, and of two such neighbours the nearer, or the even one when they are as near.
-/
namespace LanguageHost

/-- The decimal `digits * 10 ^ power`. -/
structure Decimal where
  digits : Nat
  power : Int
deriving DecidableEq, Inhabited

namespace Decimal

def quotient (d : Decimal) : Nat × Nat :=
  if 0 ≤ d.power then (d.digits * Nat.pow 10 d.power.toNat, 1)
  else (d.digits, Nat.pow 10 (-d.power).toNat)

/-- The same decimal with no zero at the end of its digits. -/
def strip (d : Decimal) : Decimal := go 20 d
where
  go : Nat → Decimal → Decimal
    | 0, d => d
    | n + 1, d =>
      if d.digits ≠ 0 ∧ d.digits % 10 = 0 then go n ⟨d.digits / 10, d.power + 1⟩ else d

/-- The power of ten `e` with `10 ^ (e - 1) ≤ num / den < 10 ^ e`. -/
def magnitudeOf (num den : Nat) : Int :=
  let guess := ((num.log2 : Int) - (den.log2 : Int)) * 30103 / 100000
  let below (e : Int) : Bool :=
    if 0 ≤ e then num < den * Nat.pow 10 e.toNat else num * Nat.pow 10 (-e).toNat < den
  if below (guess - 1) then guess - 1
  else if below guess then guess
  else if below (guess + 1) then guess + 1
  else guess + 2

/-- The decimals just below and above `num / den` on the grid of units `10 ^ power`. -/
def neighbours (num den : Nat) (power : Int) : Decimal × Decimal :=
  let d := if 0 ≤ power then num / (den * Nat.pow 10 power.toNat) else num * Nat.pow 10 (-power).toNat / den
  (⟨d, power⟩, ⟨d + 1, power⟩)

/-- The distance of a decimal from `num / den`, over a common denominator. -/
def distance (num den : Nat) (d : Decimal) : Nat :=
  let (n, m) := d.quotient
  (num * m - n * den) + (n * den - num * m)

def readsBack (s : Scaled) (d : Decimal) : Bool :=
  BinaryFormat.double.roundDecimal? d.digits d.power == some s

/-- The shortest decimal that reads back as the magnitude, which is not zero. -/
def shortest (s : Scaled) : Decimal :=
  let (num, den) := Binary64.quotient s
  let top := magnitudeOf num den
  let onGrid (k : Nat) : Option Decimal :=
    let (low, high) := neighbours num den (top - k)
    match readsBack s low, readsBack s high with
    | true, true =>
      -- Both neighbours share a power, so their distances share a denominator.
      let below := distance num den low
      let above := distance num den high
      if below < above ∨ (below = above ∧ low.digits % 2 = 0) then some low else some high
    | true, false => some low
    | false, true => some high
    | false, false => none
  (((List.range 17).findSome? fun i => onGrid (i + 1)).getD ⟨num / den, 0⟩).strip

end Decimal

namespace Binary64

def zeros (n : Nat) : String := String.ofList (List.replicate n '0')

/-- An exponent, its sign always written. -/
def exponentText (e : Int) : String := "e" ++ (if e < 0 then "" else "+") ++ toString e

/-- The text of a finite number in a data file: positional from `1e-5` up to `1e16` and then always
with a point, else with a signed exponent. -/
def toText (x : Binary64) : String :=
  let sign := if x.isNegative then "-" else ""
  if x.magnitude.mantissa = 0 then sign ++ "0.0"
  else
    let d := Decimal.shortest x.magnitude
    let ds := toString d.digits
    let n : Int := ds.length
    let point := n + d.power
    let cut (k : Nat) : String × String :=
      (String.ofList (ds.toList.take k), String.ofList (ds.toList.drop k))
    let body :=
      if 0 ≤ d.power ∧ point ≤ 16 then ds ++ zeros d.power.toNat ++ ".0"
      else if 0 < point ∧ point ≤ 16 then
        let (a, b) := cut point.toNat
        a ++ "." ++ b
      else if -5 < point ∧ point ≤ 0 then "0." ++ zeros (-point).toNat ++ ds
      else if n = 1 then ds ++ exponentText (point - 1)
      else
        let (a, b) := cut 1
        a ++ "." ++ b ++ exponentText (point - 1)
    sign ++ body

end Binary64

end LanguageHost
