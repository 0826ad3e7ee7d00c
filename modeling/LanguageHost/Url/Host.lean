import LanguageHost.Percent
import LanguageHost.Url.Domain

/-!
Hosts of URLs: domain names, IPv4 and IPv6 addresses, each in its one normal spelling. The host of a
scheme that is not special is opaque and only escaped.
-/
namespace LanguageHost.Url

def isForbiddenInHost (c : Char) : Bool :=
  c.toNat == 0 || "\t\n\r #/:<>?@[\\]^|".toList.contains c

def isForbiddenInDomain (c : Char) : Bool :=
  isForbiddenInHost c || Percent.isControl c || c == '%'

/-- One number of an IPv4 address: decimal, octal after `0` or hexadecimal after `0x`. -/
def ipv4Number? (cs : List Char) : Option Nat :=
  let read (p : Char → Bool) (base : Nat) (ds : List Char) : Option Nat :=
    if ds.all p then some (Text.numeral base ds) else none
  match cs with
  | [] => none
  | '0' :: 'x' :: ds | '0' :: 'X' :: ds => read Text.isHexDigit 16 ds
  | '0' :: d :: ds => read (fun c => '0' ≤ c && c ≤ '7') 8 (d :: ds)
  | ds => read Text.isDigit 10 ds

/-- The labels of a domain, less the empty one that a final dot leaves. -/
def labels (domain : List Char) : List (List Char) :=
  let parts := Text.fields '.' domain
  match parts.reverse with
  | [] :: rest => if rest.isEmpty then parts else rest.reverse
  | _ => parts

/-- A domain whose last label is a number has to be an address. -/
def endsInNumber (domain : List Char) : Bool :=
  match (labels domain).getLast? with
  | none => false
  | some [] => false
  | some last => last.all Text.isDigit ||
      match last with
      | '0' :: 'x' :: ds | '0' :: 'X' :: ds => ds.all Text.isHexDigit
      | _ => false

/-- The address that at most four numbers write; the last fills all octets that are left. -/
def ipv4? (domain : List Char) : Option Nat := do
  let parts := labels domain
  if 4 < parts.length then none
  else
    let numbers ← parts.mapM ipv4Number?
    match numbers.reverse with
    | [] => none
    | last :: before =>
      let heads := before.reverse
      if heads.any (255 < ·) ∨ Nat.pow 256 (4 - heads.length) ≤ last then none
      else
        let (high, _) := heads.foldl (fun (acc, weight) n => (acc + n * Nat.pow 256 weight, weight - 1)) (0, 3)
        pure (high + last)

def ipv4Text (n : Nat) : String :=
  String.intercalate "." [toString (n / 0x1000000), toString (n / 0x10000 % 256),
    toString (n / 0x100 % 256), toString (n % 256)]

/-- Sixteen bits of an IPv6 address in one to four hexadecimal digits. -/
def ipv6Piece? (cs : List Char) : Option Nat :=
  if !cs.isEmpty ∧ cs.length ≤ 4 ∧ cs.all Text.isHexDigit then some (Text.numeral 16 cs) else none

/-- A part of a dotted address at the end of an IPv6 one; no zero stands in front. -/
def ipv4Octet? (cs : List Char) : Option Nat :=
  match cs with
  | '0' :: _ :: _ => none
  | _ =>
    if !cs.isEmpty ∧ cs.length ≤ 3 ∧ cs.all Text.isDigit ∧ Text.numeral 10 cs ≤ 255 then
      some (Text.numeral 10 cs)
    else none

/-- The pieces between colons; a dotted address makes the last two. -/
def ipv6Pieces? (cs : List Char) : Option (List Nat) :=
  if cs.isEmpty then some []
  else
    let parts := Text.fields ':' cs
    match parts.reverse with
    | [] => none
    | last :: before => do
      let heads ← before.reverse.mapM ipv6Piece?
      if '.' ∈ last then
        match ← (Text.fields '.' last).mapM ipv4Octet? with
        | [a, b, c, d] => pure (heads ++ [a * 256 + b, c * 256 + d])
        | _ => none
      else pure (heads ++ [← ipv6Piece? last])

/-- The text before and after the first pair of colons. -/
def cutDoubleColon? : List Char → Option (List Char × List Char)
  | ':' :: ':' :: rest => some ([], rest)
  | c :: rest => (cutDoubleColon? rest).map fun (a, b) => (c :: a, b)
  | [] => none

/-- The eight pieces of an IPv6 address; a pair of colons stands for one zero piece or more. -/
def ipv6? (cs : List Char) : Option (List Nat) := do
  match cutDoubleColon? cs with
  | none =>
    let pieces ← ipv6Pieces? cs
    if pieces.length = 8 then pure pieces else none
  | some (before, after) =>
    let heads ← ipv6Pieces? before
    let tails ← ipv6Pieces? after
    if '.' ∈ before then none
    else if heads.length + tails.length ≤ 7 then
      pure (heads ++ List.replicate (8 - heads.length - tails.length) 0 ++ tails)
    else none

def hexText (n : Nat) : String := String.ofList (Nat.toDigits 16 n)

/-- Where the first of the longest runs of two or more zeros starts, and its length. -/
def longestZeros (pieces : List Nat) : Nat × Nat :=
  let runAt (i : Nat) : Nat := ((pieces.drop i).takeWhile (· = 0)).length
  (List.range pieces.length).foldl (fun (start, len) i =>
    if 2 ≤ runAt i ∧ len < runAt i then (i, runAt i) else (start, len)) (0, 0)

def ipv6Text (pieces : List Nat) : String :=
  let join (ps : List Nat) : String := String.intercalate ":" (ps.map hexText)
  match longestZeros pieces with
  | (_, 0) => "[" ++ join pieces ++ "]"
  | (start, len) =>
    "[" ++ join (pieces.take start) ++ "::" ++ join (pieces.drop (start + len)) ++ "]"

/-- The host of a special scheme in its normal spelling. -/
def specialHost? (cs : List Char) : Option String :=
  match cs with
  | [] => none
  | '[' :: rest =>
    match rest.reverse with
    | ']' :: inner => (ipv6? inner.reverse).map ipv6Text
    | _ => none
  | _ => do
    let decoded ← Percent.decode? cs
    let domain ← Domain.toAscii? decoded
    if domain.isEmpty ∨ domain.any isForbiddenInDomain then none
    else if endsInNumber domain then (ipv4? domain).map ipv4Text
    else pure (String.ofList domain)

/-- The host of any other scheme: an IPv6 address, or text with its control characters escaped. -/
def opaqueHost? (cs : List Char) : Option String :=
  match cs with
  | '[' :: rest =>
    match rest.reverse with
    | ']' :: inner => (ipv6? inner.reverse).map ipv6Text
    | _ => none
  | _ =>
    if cs.any isForbiddenInHost then none
    else some (String.ofList (Percent.encode Percent.isControl cs))

end LanguageHost.Url
