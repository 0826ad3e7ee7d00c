import LanguageHost.Text.Direction
import LanguageHost.Text.Joining
import LanguageHost.Text.Normal
import LanguageHost.Url.DomainMapping
import LanguageHost.Url.Punycode

/-!
Domain names of all scripts, in ASCII. `Domain.toAscii?` gives a name the one form under which it is
looked up: each label that holds other characters is written in Punycode, and labels that could be
mistaken for others are refused.
-/
namespace LanguageHost.Url.Domain

/-- What a label in Punycode begins with. -/
def codedMark : List Char := "xn--".toList

/-- The longest label, without its mark, that is read from Punycode. -/
def codedLimit : Nat := 2000

/-- The longest label that is written in Punycode. -/
def plainLimit : Nat := 1000

def isAscii (cs : List Char) : Bool := cs.all (·.toNat < 0x80)

/-- The label in its own script. Punycode has to stand for a label that needs it, and that is in the form
that a domain has. -/
def readLabel? (label : List Char) : Option (List Char) :=
  match Text.afterStart? codedMark label with
  | none => some label
  | some coded =>
    if codedLimit < coded.length then none
    else do
      let plain ← Punycode.decode? coded
      if isAscii plain || (Text.afterStart? codedMark plain).isSome then none
      else if plain.all isMappedToItself && Text.isNormalForm plain then pure plain
      else none

def writeLabel? (label : List Char) : Option (List Char) :=
  if isAscii label then some label
  else if plainLimit < label.length then none
  else some (codedMark ++ Punycode.encode label)

/-- No mark stands first, and the joiners are in place. -/
def isWellJoined (label : List Char) : Bool :=
  !(label.head?.any Text.isMark) && Text.joinersPlaced [] label

/-- Where a label runs from right to left, no label mixes directions. -/
def keepDirections (labels : List (List Char)) : Bool :=
  let directions := labels.map (·.map Text.direction)
  !(directions.any (·.any Text.Direction.isFromRight)) || directions.all Text.Direction.isSound

/-- The name in ASCII; none when it is no domain name. -/
def toAscii? (name : List Char) : Option (List Char) := do
  let mapped ← name.mapM mapChar?
  let labels ← (Text.fields '.' (Text.normalForm mapped.flatten)).mapM readLabel?
  if labels.all isWellJoined && keepDirections labels then
    pure (List.intercalate ['.'] (← labels.mapM writeLabel?))
  else none

end LanguageHost.Url.Domain
