import LanguageHost.Text.CombiningClass
import LanguageHost.Text.Decomposition

/-!
The composed normal form of text: characters are taken apart, marks put in the order of their classes,
and what can be put together is.
-/
namespace LanguageHost.Text

/-- Enters a character behind `done`, the nearest first. A mark passes those of a higher class. -/
def insertMark (c : Char) : List Char → List Char
  | [] => [c]
  | d :: done =>
    if combiningClass c ≠ 0 ∧ combiningClass c < combiningClass d then d :: insertMark c done
    else c :: d :: done

/-- The text with the marks behind each character in the order of their classes. -/
def orderMarks (cs : List Char) : List Char := (cs.foldl (fun done c => insertMark c done) []).reverse

/-- A text that is being put together: what is complete, the character that may still grow, and the
marks behind it; both lists hold the nearest character first. -/
structure Composing where
  done : List Char
  base : Option Char
  marks : List Char

namespace Composing

def text (s : Composing) : List Char := s.marks ++ s.base.toList ++ s.done

/-- A mark of the same class or a higher one keeps a later one from the base. -/
def reachesBase (s : Composing) (c : Char) : Bool :=
  match s.marks with
  | [] => true
  | m :: _ => combiningClass m < combiningClass c

def push (s : Composing) (c : Char) : Composing :=
  match if s.reachesBase c then s.base.bind (compose? · c) else none with
  | some grown => { s with base := some grown }
  | none =>
    if combiningClass c = 0 then ⟨s.text, some c, []⟩ else { s with marks := c :: s.marks }

end Composing

def composeAll (cs : List Char) : List Char := (cs.foldl Composing.push ⟨[], none, []⟩).text.reverse

/-- The composed normal form; text below U+0300 is in it. -/
def normalForm (cs : List Char) : List Char :=
  if cs.all (·.toNat < 0x300) then cs else composeAll (orderMarks (decompose cs))

def isNormalForm (cs : List Char) : Bool := normalForm cs == cs

end LanguageHost.Text
