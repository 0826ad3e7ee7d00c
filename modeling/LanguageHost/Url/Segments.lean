import LanguageHost.Url.Basic

/-!
The segments of a path in normal form. A dot segment is taken out, and two dots take out the segment
before them; a drive letter, with which file systems of another kind begin, is never taken out.
-/
namespace LanguageHost.Url

def isLetter (c : Char) : Bool := ('a' ≤ c && c ≤ 'z') || ('A' ≤ c && c ≤ 'Z')

def isSlash (special : Bool) (c : Char) : Bool := c == '/' || (special && c == '\\')

/-- The pieces of a text between slashes; never the empty list. -/
def slashed (special : Bool) : List Char → List (List Char)
  | [] => [[]]
  | c :: cs =>
    if isSlash special c then [] :: slashed special cs
    else match slashed special cs with
      | [] => [[c]]
      | p :: ps => (c :: p) :: ps

/-- A segment with its escaped dots written out, as far as they matter. -/
def dots (segment : List Char) : List Char :=
  match segment with
  | '%' :: '2' :: 'e' :: rest | '%' :: '2' :: 'E' :: rest => '.' :: dots rest
  | c :: rest => c :: dots rest
  | [] => []

/-- A letter with a colon, for which a bar may stand. -/
def isDrive (segment : List Char) : Bool :=
  match segment with
  | [c, d] => isLetter c && (d == ':' || d == '|')
  | _ => false

/-- A drive, alone or in front of a backslash. -/
def beginsWithDrive (segment : List Char) : Bool :=
  isDrive (segment.take 2) && (segment.drop 2).head?.all (· == '\\')

/-- The segments of a path that are complete, the nearest first, and whether a drive was found in front
of all others. -/
structure Trail where
  done : List String
  drive : Bool

namespace Trail

/-- Takes out the segment before two dots. -/
def back (t : Trail) : Trail :=
  match t.done with
  | [] => t
  | s :: before => if beginsWithDrive s.toList then t else { t with done := before }

def push (t : Trail) (segment : String) : Trail := { t with done := segment :: t.done }

/-- Enters a segment that is not dots. In a file URL a drive in front of all others has its colon. -/
def enter (file : Bool) (t : Trail) (segment : List Char) : Trail :=
  let plain := Percent.encode inPath segment
  if file ∧ t.done.isEmpty ∧ isDrive plain then ⟨[String.ofList (plain.take 1 ++ [':'])], true⟩
  else t.push (String.ofList plain)

/-- Enters the segments in turn. Dots that stand last leave an empty segment. -/
def enterAll (file : Bool) (t : Trail) : List (List Char) → Trail
  | [] => t
  | segment :: rest =>
    let close (t : Trail) : Trail := if rest.isEmpty then t.push "" else t
    match dots segment with
    | ['.', '.'] => enterAll file (close t.back) rest
    | ['.'] => enterAll file (close t) rest
    | _ => enterAll file (t.enter file segment) rest

end Trail

/-- The segments of a file URL have no empty one in front, unless it is the only one. -/
def dropLeadingEmpty (segments : List String) : List String :=
  match segments.dropWhile (·.isEmpty) with
  | [] => [""]
  | rest => rest

/-- The segments that `cs` writes, and whether a file URL begins with a drive. -/
def segmentsOf (scheme : String) (cs : List Char) : List String × Bool :=
  let file := scheme == "file"
  let t := Trail.enterAll file ⟨[], false⟩ (slashed (isSpecial scheme) cs)
  (if file then dropLeadingEmpty t.done.reverse else t.done.reverse, t.drive)

end LanguageHost.Url
