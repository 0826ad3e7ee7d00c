import LanguageHost.Url.Authority
import LanguageHost.Url.Segments

/-!
Reading URLs. `Url.ofText?` reads an absolute one and normalises it by the rules of the web, so that
`Url.normal?` gives the one spelling of a URL. `Url.resolve?` reads a text as it is meant at a place.
-/
namespace LanguageHost.Url

def isSchemeChar (c : Char) : Bool :=
  isLetter c || Text.isDigit c || c == '+' || c == '-' || c == '.'

/-- The text less control characters and blanks at its ends, and less tabs and newlines. -/
def stripped (cs : List Char) : List Char :=
  let outer (c : Char) : Bool := c.toNat ≤ 0x20
  let cs := ((cs.dropWhile outer).reverse.dropWhile outer).reverse
  cs.filter fun c => c != '\t' && c != '\n' && c != '\r'

/-- The scheme in small letters, and what follows its colon. -/
def cutScheme? (cs : List Char) : Option (String × List Char) :=
  match cs with
  | c :: _ =>
    if isLetter c then
      match cs.dropWhile isSchemeChar with
      | ':' :: rest => some (String.ofList ((cs.takeWhile isSchemeChar).map Text.asciiLower), rest)
      | _ => none
    else none
  | [] => none

/-- A URL in pieces that are not read yet. -/
structure Pieces where
  scheme : String
  /-- authority and path -/
  front : List Char
  query : Option (List Char)
  fragment : Option (List Char)

namespace Pieces

def ofText? (s : String) : Option Pieces := do
  let (scheme, cs) ← cutScheme? (stripped s.toList)
  let (cs, fragment) := match Text.cut? '#' cs with
    | some (a, f) => (a, some f)
    | none => (cs, none)
  pure <| match Text.cut? '?' cs with
    | some (a, q) => ⟨scheme, a, some q, fragment⟩
    | none => ⟨scheme, cs, none, fragment⟩

/-- The host of a file URL; `localhost` is none. -/
def fileHost? (cs : List Char) : Option String :=
  if cs.isEmpty then some ""
  else (specialHost? cs).map fun h => if h = "localhost" then "" else h

/-- Authority and path of a file URL. Where a path begins with a drive there is no host. -/
def fileParts? (front : List Char) : Option (Authority × UrlPath) :=
  let place (host : String) (cs : List Char) : Authority × UrlPath :=
    let (segments, drive) := segmentsOf "file" cs
    (⟨"", none, if drive then "" else host, none⟩, .segments segments)
  match front with
  | a :: b :: rest =>
    if !isSlash true a then some (place "" front)
    else if !isSlash true b then some (place "" (b :: rest))
    else
      let hostText := rest.takeWhile (!isSlash true ·)
      let path := rest.dropWhile (!isSlash true ·)
      if isDrive hostText then some (place "" rest)
      else (fileHost? hostText).map fun host => place host (if host = "" then path else path.drop 1)
  | _ => some (place "" (front.dropWhile (isSlash true)))

/-- Authority and path behind two slashes, in a scheme other than `file`. -/
def authorityParts? (p : Pieces) (cs : List Char) : Option (Option Authority × UrlPath) := do
  let special := isSpecial p.scheme
  let path := cs.dropWhile (!isSlash special ·)
  let atEnd := path.isEmpty && p.query.isNone && p.fragment.isNone
  let (authority, extra) ← authority? p.scheme atEnd (cs.takeWhile (!isSlash special ·))
  let segments (cs : List Char) : UrlPath := .segments (segmentsOf p.scheme cs).1
  pure (some authority, match extra, path with
    | [], [] => if special then .segments [""] else .segments []
    | [], _ :: rest => segments rest
    | _, _ => segments (extra ++ path))

/-- Authority and path in a scheme other than `file`. -/
def parts? (p : Pieces) : Option (Option Authority × UrlPath) :=
  if isSpecial p.scheme then p.authorityParts? (p.front.dropWhile (isSlash true))
  else match p.front with
    | '/' :: '/' :: rest => p.authorityParts? rest
    | '/' :: rest => some (none, .segments (segmentsOf p.scheme rest).1)
    | cs => some (none, .plain (String.ofList (Percent.encode Percent.isControl cs)))

def url? (p : Pieces) : Option Url := do
  let (authority, path) ←
    if p.scheme = "file" then (fileParts? p.front).map fun (a, path) => (some a, path) else p.parts?
  pure ⟨p.scheme, authority, path,
    p.query.map fun q => String.ofList (Percent.encode (inQuery (isSpecial p.scheme)) q),
    p.fragment.map fun f => String.ofList (Percent.encode inFragment f)⟩

end Pieces

def ofText? (s : String) : Option Url := (Pieces.ofText? s).bind Pieces.url?

def normal? (s : String) : Option String := (ofText? s).map text

/-- The path up to its last slash. -/
def directoryText (u : Url) : String :=
  String.ofList (u.pathText.toList.reverse.dropWhile (· != '/')).reverse

/-- The URL that a text without a scheme writes, the URL of the web at hand giving what it leaves out. -/
def resolveFrom? (u : Url) (cs : List Char) : Option Url :=
  let bare := { u with fragment := none }
  let page := { bare with query := none }
  let origin := { page with path := .segments [] }
  let rest := String.ofList cs
  match cs with
  | [] => some bare
  | '#' :: _ => ofText? (bare.text ++ rest)
  | '?' :: _ => ofText? (page.text ++ rest)
  | a :: more =>
    if !isSlash true a then ofText? (origin.text ++ u.directoryText ++ rest)
    else match more with
      | b :: _ => ofText? (if isSlash true b then u.scheme ++ ":" ++ rest else origin.text ++ rest)
      | [] => ofText? (origin.text ++ rest)

/-- The URL that a text writes at a URL of the web. With the scheme of that URL and no authority it still
leaves out what it does not say. -/
def resolve? (u : Url) (s : String) : Option Url :=
  let cs := stripped s.toList
  match cutScheme? cs with
  | none => u.resolveFrom? cs
  | some (scheme, rest) =>
    if scheme = u.scheme ∧ (rest.takeWhile (isSlash true)).length < 2 then u.resolveFrom? rest
    else ofText? s

end LanguageHost.Url
