import LanguageHost.Text.Blank

/-!
Sets and maps of characters, read from tables. A table is a list of rows, a row a line of words, and a
word names a run of code points in hexadecimal: `5-9` all of them, `5~9` every second one, `5` itself.
In a map a colon and what the run becomes follow.
-/
namespace LanguageHost.Text

/-- The code points from `first` to `last` that lie a multiple of `stride` above the first. -/
structure CharRun where
  first : Nat
  last : Nat
  stride : Nat
deriving DecidableEq, Repr

namespace CharRun

def contains (r : CharRun) (n : Nat) : Bool :=
  r.first ≤ n && n ≤ r.last && (n - r.first) % r.stride == 0

def ofWord (word : List Char) : CharRun :=
  match cut? '-' word, cut? '~' word with
  | some (first, last), _ => ⟨numeral 16 first, numeral 16 last, 1⟩
  | none, some (first, last) => ⟨numeral 16 first, numeral 16 last, 2⟩
  | none, none => ⟨numeral 16 word, numeral 16 word, 1⟩

end CharRun

structure CharSet where
  runs : List CharRun
deriving Repr

namespace CharSet

def ofRows (rows : List String) : CharSet :=
  ⟨rows.flatMap fun row => (wordsOf row.toList).map CharRun.ofWord⟩

def contains (s : CharSet) (c : Char) : Bool := s.runs.any (·.contains c.toNat)

end CharSet

/-- What the characters of a run become. -/
structure CharRule where
  run : CharRun
  target : List Nat
deriving Repr

structure CharMap where
  rules : List CharRule
deriving Repr

namespace CharMap

def ruleOfWord (word : List Char) : CharRule :=
  match cut? ':' word with
  | some (run, target) => ⟨CharRun.ofWord run, (fields ',' target).map (numeral 16)⟩
  | none => ⟨CharRun.ofWord word, []⟩

def ofRows (rows : List String) : CharMap :=
  ⟨rows.flatMap fun row => (wordsOf row.toList).map ruleOfWord⟩

/-- What the character becomes. A single target is that of the first of the run, and the others keep
their distance from it. -/
def get? (m : CharMap) (c : Char) : Option (List Char) :=
  (m.rules.find? (·.run.contains c.toNat)).map fun r =>
    match r.target with
    | [t] => [Char.ofNat (t + (c.toNat - r.run.first))]
    | ts => ts.map Char.ofNat

/-- The character that alone becomes the two. -/
def key? (m : CharMap) (a b : Char) : Option Char :=
  (m.rules.find? (·.target == [a.toNat, b.toNat])).map fun r => Char.ofNat r.run.first

end CharMap

end LanguageHost.Text
