import LanguageHost.Text.Blank

/-!
Punycode: any text in letters, digits and hyphens. The ASCII characters come first; behind the last
hyphen stand the others, in increasing order, each as its distance from the one before, counted over all
places where it could stand.
-/
namespace LanguageHost.Url.Punycode

/-- The digit for a value below 36. -/
def digit (n : Nat) : Char := if n < 26 then Char.ofNat (97 + n) else Char.ofNat (22 + n)

def digitValue? (c : Char) : Option Nat :=
  if 'a' ≤ c ∧ c ≤ 'z' then some (c.toNat - 97)
  else if '0' ≤ c ∧ c ≤ '9' then some (c.toNat - 22)
  else none

/-- The least value of a digit that has another one behind it, at weight `k`. -/
def threshold (k bias : Nat) : Nat :=
  if k ≤ bias then 1 else if bias + 26 ≤ k then 26 else k - bias

theorem threshold_pos (k bias : Nat) : 1 ≤ threshold k bias := by
  unfold threshold
  split
  · omega
  · split <;> omega

/-- Halves and more of a distance until it is short; `k` counts the steps in digits. -/
def settle (delta k : Nat) : Nat :=
  if 455 < delta then settle (delta / 35) (k + 36) else k + 36 * delta / (delta + 38)
termination_by delta
decreasing_by exact Nat.div_lt_self (by omega) (by omega)

/-- The bias after a distance, when `count` characters are in place. -/
def adapt (delta count : Nat) (first : Bool) : Nat :=
  let d := if first then delta / 700 else delta / 2
  settle (d + d / count) 0

/-- A distance in digits of growing weight. -/
def distanceDigits (q k bias : Nat) : List Char :=
  let t := threshold k bias
  if q < t then [digit q]
  else digit (t + (q - t) % (36 - t)) :: distanceDigits ((q - t) / (36 - t)) (k + 36) bias
termination_by q
decreasing_by
  have := threshold_pos k bias
  exact Nat.lt_of_le_of_lt (Nat.div_le_self _ _) (by omega)

/-- A text that is being written. -/
structure Writing where
  /-- what is written, the last digit first -/
  out : List Char
  delta : Nat
  bias : Nat
  /-- how many characters are in place -/
  count : Nat
  /-- whether all of them are ASCII -/
  first : Bool

namespace Writing

/-- Passes one character while those at `n` are put in place. -/
def pass (n : Nat) (w : Writing) (c : Char) : Writing :=
  if c.toNat < n then { w with delta := w.delta + 1 }
  else if c.toNat = n then
    { out := (distanceDigits w.delta 36 w.bias).reverse ++ w.out
      delta := 0
      bias := adapt w.delta (w.count + 1) w.first
      count := w.count + 1
      first := false }
  else w

/-- Puts the characters at the given code points in place; `n` is the least one not yet considered. -/
def place (cs : List Char) (n : Nat) (w : Writing) : List Nat → Writing
  | [] => w
  | m :: rest =>
    let w := cs.foldl (pass m) { w with delta := w.delta + (m - n) * (w.count + 1) }
    place cs (m + 1) { w with delta := w.delta + 1 } rest

end Writing

/-- The code points outside ASCII, in increasing order and each once. -/
def foreign (cs : List Char) : List Nat :=
  (((cs.map Char.toNat).filter (0x80 ≤ ·)).mergeSort (· ≤ ·)).eraseDups

def encode (cs : List Char) : List Char :=
  let basic := cs.filter (·.toNat < 0x80)
  let front := if basic.isEmpty then [] else basic ++ ['-']
  front ++ (Writing.place cs 0x80 ⟨[], 0, 72, basic.length, true⟩ (foreign cs)).out.reverse

/-- A distance and what follows its digits. -/
def distance? (bias k weight sum : Nat) : List Char → Option (Nat × List Char)
  | [] => none
  | c :: cs =>
    match digitValue? c with
    | none => none
    | some d =>
      let t := threshold k bias
      if d < t then some (sum + d * weight, cs)
      else distance? bias (k + 36) (weight * (36 - t)) (sum + d * weight) cs

theorem distance?_shorter {bias k weight sum : Nat} {cs rest : List Char} {n : Nat}
    (h : distance? bias k weight sum cs = some (n, rest)) : rest.length < cs.length := by
  induction cs generalizing k weight sum with
  | nil => simp [distance?] at h
  | cons c cs ih =>
    simp only [distance?] at h
    split at h
    · simp at h
    · split at h
      · simp at h; simp [← h.2]
      · exact Nat.lt_succ_of_lt (ih h)

/-- Reads distances and enters the characters that they lead to; `i` is the place behind the last one
that was entered and `n` its code point. -/
def enterAll? (bias n i : Nat) (done : List Char) (cs : List Char) : Option (List Char) :=
  match cs with
  | [] => some done
  | c :: cs =>
    match h : distance? bias 36 1 0 (c :: cs) with
    | none => none
    | some (d, rest) =>
      have : rest.length < cs.length + 1 := distance?_shorter h
      let count := done.length + 1
      let next := n + (i + d) / count
      let place := (i + d) % count
      if next.isValidChar then
        enterAll? (adapt d count (i == 0)) next (place + 1)
          (done.insertIdx place (Char.ofNat next)) rest
      else none
termination_by cs.length

/-- The text before the last hyphen, and the text behind it. A hyphen in front of all stays where it
is. -/
def cutLastHyphen (cs : List Char) : List Char × List Char :=
  match Text.cut? '-' cs.reverse with
  | some (after, before) => if before.isEmpty then ([], cs) else (before.reverse, after.reverse)
  | none => ([], cs)

/-- The text that `encode` writes so. -/
def decode? (cs : List Char) : Option (List Char) :=
  let (basic, distances) := cutLastHyphen cs
  if basic.all (·.toNat < 0x80) then enterAll? 72 0x80 0 basic distances else none

end LanguageHost.Url.Punycode
