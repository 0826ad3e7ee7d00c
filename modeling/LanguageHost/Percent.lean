import LanguageHost.Text.Blank
import LanguageHost.Text.Utf8

/-!
Percent-coding of octets. `encode` writes a percent sign and two capital hexadecimal digits for every
octet of a character that is to be escaped; `decode?` reads such triples and leaves any other percent
sign as it stands.
-/
namespace LanguageHost.Percent

def hexCapital (n : Nat) : Char := if n < 10 then Char.ofNat (48 + n) else Char.ofNat (55 + n)

def octet (b : UInt8) : List Char := ['%', hexCapital (b.toNat / 16), hexCapital (b.toNat % 16)]

/-- Escapes the characters that `escaped` names, and every character outside ASCII. -/
def encodeChar (escaped : Char → Bool) (c : Char) : List Char :=
  if c.toNat < 0x80 ∧ !escaped c then [c] else (String.utf8EncodeChar c).flatMap octet

def encode (escaped : Char → Bool) (cs : List Char) : List Char := cs.flatMap (encodeChar escaped)

def encodeString (escaped : Char → Bool) (s : String) : String :=
  String.ofList (encode escaped s.toList)

/-- The ASCII control characters, DEL included. -/
def isControl (c : Char) : Bool := c.toNat < 0x20 || c.toNat == 0x7F

def hexOctet? (b : UInt8) : Option Nat :=
  let c := Char.ofNat b.toNat
  if b < 0x80 ∧ Text.isHexDigit c then some (Text.digitValue c) else none

/-- The octets that an escaped text stands for. -/
def decodeOctets : Octets → Octets
  | [] => []
  | 0x25 :: b :: c :: rest =>
    match hexOctet? b, hexOctet? c with
    | some x, some y => UInt8.ofNat (x * 16 + y) :: decodeOctets rest
    | _, _ => 0x25 :: decodeOctets (b :: c :: rest)
  | a :: rest => a :: decodeOctets rest

/-- The text that an escaped text stands for; none when its octets are not UTF-8. -/
def decode? (cs : List Char) : Option (List Char) := Utf8.decode (decodeOctets (Utf8.encode cs))

end LanguageHost.Percent
