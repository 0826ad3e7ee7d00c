import LanguageHost.Text.Mark
import LanguageHost.Text.Unassigned

/-!
Text as a literal: between quotes, with an escape for every character that would not show as itself.
-/
namespace LanguageHost.Text

/-- Controls, formats, separators other than the space, and characters of private use. -/
def formats : CharSet := .ofRows [
  "0-1f 7f-a0 ad 600-605 61c 6dd 70f 890-891 8e2 1680 180e 2000-200f 2028-202f 205f-2064 2066-206f",
  "3000 e000-f8ff feff fff9-fffb 110bd 110cd 13430-1343f 1bca0-1bca3 1d173-1d17a e0001 e0020-e007f",
  "f0000-ffffd 100000-10fffd"]

/-- Characters that extend the one before them without being nonspacing marks. -/
def extenders : CharSet := .ofRows [
  "9be 9d7 b3e b57 bbe bd7 cc0 cc2 cc7-cc8 cca-ccb cd5-cd6 d3e d57 dcf ddf 1715 1734 1b35 1b3b",
  "1b3d 1b43-1b44 1baa 1bf2-1bf3 200c 302e-302f a953 a9c0 ff9e-ff9f 111c0 11235 1133e 1134d 11357",
  "113b8 113c2 113c5 113c7-113c9 113cf 114b0 114bd 115af 116b6 11930 1193d 11f41 16ff0-16ff1",
  "1d165-1d166 1d16d-1d172 e0020-e007f"]

/-- Whether the character would not show as itself: nothing would be seen, or it would be seen as a part
of the one before it. -/
def isHidden (c : Char) : Bool :=
  if c.toNat < 0x80 then c.toNat < 0x20 || c.toNat == 0x7F
  else formats.contains c || extenders.contains c || nonspacingMarks.contains c || unassigned.contains c

/-- A character inside a literal. -/
def literalChar (c : Char) : List Char :=
  match c with
  | '"' => ['\\', '"']
  | '\\' => ['\\', '\\']
  | '\n' => ['\\', 'n']
  | '\r' => ['\\', 'r']
  | '\t' => ['\\', 't']
  | '\x00' => ['\\', '0']
  | c =>
    if isHidden c then ['\\', 'u', '\x7b'] ++ Nat.toDigits 16 c.toNat ++ ['\x7d'] else [c]

def literal (s : String) : String :=
  String.ofList (['"'] ++ s.toList.flatMap literalChar ++ ['"'])

end LanguageHost.Text
