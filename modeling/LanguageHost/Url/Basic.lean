import LanguageHost.Path
import LanguageHost.Percent

/-!
URLs. `Url.text` writes one; `Url.ofFilePath?` names a file.
-/
namespace LanguageHost

/-- Who and where: everything between the two slashes and the path. -/
structure Authority where
  user : String
  password : Option String
  host : String
  port : Option Nat
deriving DecidableEq, Repr

inductive UrlPath where
  /-- a path that is no hierarchy, as in `mailto:` -/
  | plain (text : String)
  | segments (names : List String)
deriving DecidableEq, Repr

structure Url where
  scheme : String
  authority : Option Authority
  path : UrlPath
  query : Option String
  fragment : Option String
deriving DecidableEq, Repr

namespace Url

/-- The schemes whose URLs always have an authority, with their usual ports. -/
def specialPort? (scheme : String) : Option (Option Nat) :=
  match scheme with
  | "http" | "ws" => some (some 80)
  | "https" | "wss" => some (some 443)
  | "ftp" => some (some 21)
  | "file" => some none
  | _ => none

def isSpecial (scheme : String) : Bool := (specialPort? scheme).isSome

def Authority.text (a : Authority) : String :=
  let password := match a.password with
    | some p => ":" ++ p
    | none => ""
  let credentials := if a.user = "" ∧ a.password.isNone then "" else a.user ++ password ++ "@"
  let port := match a.port with
    | some n => ":" ++ toString n
    | none => ""
  credentials ++ a.host ++ port

def pathText (u : Url) : String :=
  match u.path with
  | .plain t => t
  | .segments names =>
    let body := String.join (names.map ("/" ++ ·))
    if u.authority.isNone ∧ Text.startsWith "//" body then "/." ++ body else body

def text (u : Url) : String :=
  let authority := match u.authority with
    | some a => "//" ++ Authority.text a
    | none => ""
  let query := match u.query with
    | some q => "?" ++ q
    | none => ""
  let fragment := match u.fragment with
    | some f => "#" ++ f
    | none => ""
  u.scheme ++ ":" ++ authority ++ u.pathText ++ query ++ fragment

def inFragment (c : Char) : Bool :=
  Percent.isControl c || c == ' ' || c == '"' || c == '<' || c == '>' || c.toNat == 0x60

def inQuery (special : Bool) (c : Char) : Bool :=
  Percent.isControl c || c == ' ' || c == '"' || c == '#' || c == '<' || c == '>' ||
    (special && c == '\'')

def inPath (c : Char) : Bool := inFragment c || c == '#' || c == '?' || c == '{' || c == '}'

def inUserinfo (c : Char) : Bool :=
  inPath c || c == '/' || c == ':' || c == ';' || c == '=' || c == '@' || c == '[' || c == '\\' ||
    c == ']' || c == '^' || c == '|'

/-- One segment of a file path; a slash and a percent sign cannot stand for themselves. -/
def inFileSegment (c : Char) : Bool := inPath c || c == '/' || c == '%' || c == '\\'

/-- The URL of an absolute path. -/
def ofFilePath? (p : Path) : Option Url :=
  match p.components with
  | .root :: rest =>
    let names := rest.map fun c => Percent.encodeString inFileSegment c.text
    some ⟨"file", some ⟨"", none, "", none⟩, .segments (if names.isEmpty then [""] else names),
      none, none⟩
  | _ => none

end Url

end LanguageHost
