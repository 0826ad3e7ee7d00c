/-!
Blank characters, and the cuts made at them or at a separator: trimming, words, lines and fields.
Everything works on lists of characters; `Text.trim`, `Text.words` and `Text.lines` are the same cuts
on strings.
-/
namespace LanguageHost.Text

/-- The characters with the Unicode property White_Space. -/
def isBlank (c : Char) : Bool :=
  let n := c.toNat
  (9 ≤ n && n ≤ 13) || n == 0x20 || n == 0x85 || n == 0xA0 || n == 0x1680 ||
    (0x2000 ≤ n && n ≤ 0x200A) || n == 0x2028 || n == 0x2029 || n == 0x202F || n == 0x205F ||
    n == 0x3000

def trimStart (cs : List Char) : List Char := cs.dropWhile isBlank

def trimEnd (cs : List Char) : List Char := (cs.reverse.dropWhile isBlank).reverse

def trimmed (cs : List Char) : List Char := trimEnd (trimStart cs)

def trim (s : String) : String := String.ofList (trimmed s.toList)

/-- The text before and after the first `sep`; nothing when there is no `sep`. -/
def cut? (sep : Char) : List Char → Option (List Char × List Char)
  | [] => none
  | c :: cs => if c = sep then some ([], cs) else (cut? sep cs).map fun (a, b) => (c :: a, b)

theorem cut?_eq {sep : Char} {s a b : List Char} (h : cut? sep s = some (a, b)) :
    s = a ++ sep :: b := by
  induction s generalizing a b with
  | nil => simp [cut?] at h
  | cons c cs ih =>
    simp only [cut?] at h
    split at h
    · next hc => simp at h; simp [← h.1, ← h.2, hc]
    · simp only [Option.map_eq_some_iff] at h
      obtain ⟨⟨x, y⟩, hxy, he⟩ := h
      simp only [Prod.mk.injEq] at he
      simp [← he.1, ← he.2, ih hxy]

theorem cut?_shorter {sep : Char} {s a b : List Char} (h : cut? sep s = some (a, b)) :
    b.length < s.length := by
  simp [cut?_eq h]; omega

/-- The fields between the separators, empty ones included; never the empty list. -/
def fields (sep : Char) : List Char → List (List Char)
  | [] => [[]]
  | c :: cs =>
    if c = sep then [] :: fields sep cs
    else match fields sep cs with
      | [] => [[c]]
      | f :: fs => (c :: f) :: fs

def split (sep : Char) (s : String) : List String := (fields sep s.toList).map String.ofList

/-- The runs of characters that are not blank. -/
def wordsOf : List Char → List (List Char)
  | [] => []
  | c :: cs =>
    if isBlank c then wordsOf cs
    else match cs with
      | [] => [[c]]
      | d :: _ =>
        if isBlank d then [c] :: wordsOf cs
        else match wordsOf cs with
          | [] => [[c]]
          | w :: ws => (c :: w) :: ws

def words (s : String) : List String := (wordsOf s.toList).map String.ofList

/-- A line loses the carriage return that ends it. -/
def dropReturn (line : List Char) : List Char :=
  match line.reverse with
  | '\r' :: rest => rest.reverse
  | _ => line

/-- A carriage return is dropped only in front of a newline, so the last field, which no newline
follows, keeps its own; when empty it is no line. -/
def linesOfFields : List (List Char) → List (List Char)
  | [] => []
  | [last] => if last.isEmpty then [] else [last]
  | f :: rest => dropReturn f :: linesOfFields rest

def linesOf (cs : List Char) : List (List Char) := linesOfFields (fields '\n' cs)

def lines (s : String) : List String := (linesOf s.toList).map String.ofList

/-- The rest of the text once `start` is taken off its front. -/
def afterStart? : List Char → List Char → Option (List Char)
  | [], cs => some cs
  | _ :: _, [] => none
  | p :: ps, c :: cs => if p = c then afterStart? ps cs else none

def startsWith (start s : String) : Bool := (afterStart? start.toList s.toList).isSome

def endsWith (ending s : String) : Bool :=
  (afterStart? ending.toList.reverse s.toList.reverse).isSome

def asciiLower (c : Char) : Char := if 'A' ≤ c ∧ c ≤ 'Z' then Char.ofNat (c.toNat + 32) else c

def isDigit (c : Char) : Bool := '0' ≤ c && c ≤ '9'

def isHexDigit (c : Char) : Bool :=
  isDigit c || ('a' ≤ c && c ≤ 'f') || ('A' ≤ c && c ≤ 'F')

/-- The value of a digit, or of a hexadecimal one of either case. -/
def digitValue (c : Char) : Nat :=
  if isDigit c then c.toNat - 48
  else if 'a' ≤ c ∧ c ≤ 'z' then c.toNat - 87
  else if 'A' ≤ c ∧ c ≤ 'Z' then c.toNat - 55
  else 0

/-- The natural number that the digits write in the given base. -/
def numeral (base : Nat) (digits : List Char) : Nat :=
  digits.foldl (fun n c => n * base + digitValue c) 0

end LanguageHost.Text
