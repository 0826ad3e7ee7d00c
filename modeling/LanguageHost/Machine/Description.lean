import LanguageHost.Json.Record
import LanguageHost.Machine.Tools

/-!
Machines described in JSON: octets, files, and the rules of tools. A field that is missing, or is of
another kind than it should be, describes nothing.
-/
namespace LanguageHost.Description

def field (j : Json) (key : String) : Json := (j.get? key).getD .null

def text? (j : Json) (key : String) : Option String := (j.get? key).bind Json.str?

def text (j : Json) (key : String) : String := (text? j key).getD ""

def items : Json → List Json
  | .arr js => js
  | _ => []

def members : Json → List (String × Json)
  | .obj ms => ms
  | _ => []

def texts (j : Json) (key : String) : List String := (items (field j key)).filterMap Json.str?

def textTable (j : Json) : Table String :=
  Table.ofList ((members j).filterMap fun (k, v) => v.str?.map fun s => (k, s))

def nat? (j : Json) (key : String) : Option Nat :=
  match j.get? key with
  | some (.int n) => some n.toNat
  | _ => none

def flag (j : Json) (key : String) : Bool := ((j.get? key).bind Json.bool?).getD false

def hexOctets : List Char → Octets
  | a :: b :: rest => UInt8.ofNat (Text.digitValue a * 16 + Text.digitValue b) :: hexOctets rest
  | _ => []

/-- Octets: text, hexadecimal digits, a text some times over, or a body with its header. -/
def octets (j : Json) : Octets :=
  match j with
  | .str s => Utf8.ofString s
  | _ =>
    match text? j "hex", text? j "repeat", text? j "body" with
    | some h, _, _ => hexOctets h.toList
    | _, some s, _ => (List.replicate ((nat? j "times").getD 0) (Utf8.ofString s)).flatten
    | _, _, some s => Utf8.ofString ("Content-Length: " ++ toString (Utf8.size s) ++ "\r\n\r\n" ++ s)
    | _, _, _ => []

/-- A file that is put into a tree, with the directories above it. -/
def putFile (t : Files) (p : Path) (content : Octets) (executable : Bool) : Files :=
  let t := match p.parent? with
    | some dir => Host.orSame t (t.makeDirs dir)
    | none => t
  let t := Host.orSame t (t.write p content)
  if executable then Host.orSame t (t.allowRun p) else t

/-- Files by their paths below a directory. -/
def putFiles (t : Files) (dir : Path) (j : Json) : Files :=
  (members j).foldl (fun t (p, content) => putFile t (dir / p) (octets content) false) t

/-- The code that a tool exits with, of which one octet is kept. -/
def exitCode (j : Json) : Nat :=
  match j.get? "exit" with
  | some (.int n) => (n.emod 256).toNat
  | _ => 0

def toolRule (j : Json) : ToolRule where
  start := text j "match"
  makeDirs := (texts j "mkdir").map Path.mk
  remove := (texts j "remove").map Path.mk
  write := (members (field j "write")).map fun (p, content) => (⟨p⟩, octets content)
  out := (items (field j "out")).map octets
  err := (items (field j "err")).map octets
  ending := if flag j "hang" then .hang
    else match nat? j "signal" with
      | some n => .signal n
      | none => .exit (exitCode j)

end LanguageHost.Description
