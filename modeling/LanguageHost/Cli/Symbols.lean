import LanguageHost.Cli.Report
import LanguageHost.Session.Launch
import LanguageHost.Session.Schedule

/-!
The listing of a document's symbols: one line for each, those inside another one below it and further in.
To get them a server is started, shown the document, asked, and stopped.
-/
namespace LanguageHost.Cli

/-- A symbol: its kind, its name, the line that it starts in, and the symbols inside it. -/
inductive SymbolTree where
  | node (kind : Int) (name : String) (line : UInt32) (inner : List SymbolTree)

namespace SymbolTree

def kindNames : List String := ["File", "Module", "Namespace", "Package", "Class", "Method", "Property",
  "Field", "Constructor", "Enum", "Interface", "Function", "Variable", "Constant", "String", "Number",
  "Boolean", "Array", "Object", "Key", "Null", "EnumMember", "Struct", "Event", "Operator",
  "TypeParameter"]

/-- Kinds are counted from one. -/
def kindName (kind : Int) : String :=
  match if kind ≤ 0 then none else kindNames[kind.toNat - 1]? with
  | some name => name
  | none => "SymbolKind(" ++ toString kind ++ ")"

/-- The line of one symbol. People count lines from one. -/
def line (depth : Nat) (kind : Int) (name : String) (start : UInt32) : String :=
  String.ofList (List.replicate (2 * depth) ' ') ++ kindName kind ++ " " ++ name ++
    " (line " ++ toString (start + 1).toNat ++ ")"

mutual

/-- The line of a symbol, and below it those of the symbols inside. -/
def lines (depth : Nat) : SymbolTree → List String
  | .node kind name start inner => line depth kind name start :: linesOf (depth + 1) inner

def linesOf (depth : Nat) : List SymbolTree → List String
  | [] => []
  | s :: rest => lines depth s ++ linesOf depth rest

end

def intOf (key : String) (j : Json) : Int :=
  match j.get? key with
  | some (.int n) => n
  | _ => 0

def textOf (key : String) (j : Json) : String := ((j.get? key).bind Json.str?).getD ""

def startLine (j : Option Json) : UInt32 :=
  ((j.bind fun r => r.get? "start").map fun p => .ofNat (intOf "line" p).toNat).getD 0

mutual

/-- A symbol of a response: its own range, or that of its location, says where it starts. -/
def ofJson : Json → SymbolTree
  | .obj members =>
    let j := Json.obj members
    let range := match j.get? "location" with
      | some l => l.get? "range"
      | none => j.get? "range"
    .node (intOf "kind" j) (textOf "name" j) (startLine range) (ofMembers members)
  | _ => .node 0 "" 0 []

/-- The symbols inside one, by its members. -/
def ofMembers : List (String × Json) → List SymbolTree
  | [] => []
  | (key, j) :: rest => if key = "children" then ofValue j else ofMembers rest

def ofValue : Json → List SymbolTree
  | .arr items => ofItems items
  | _ => []

def ofItems : List Json → List SymbolTree
  | [] => []
  | j :: rest => ofJson j :: ofItems rest

end

def listing : Json → List String
  | .null => ["No symbols"]
  | j => linesOf 0 (ofValue j)

end SymbolTree

structure SymbolsPlan where
  configs : ServerConfigs
  /-- the absolute path of the file, and what reading it comes to -/
  file : Path
  text : Except IoError String
  language : String
  root : Path
  policy : StartPolicy
  /-- how long queries wait, in milliseconds -/
  timeout : Nat

/-- What a listing comes to: the warnings on the way, and the lines or a failure. -/
structure SymbolsResult where
  warnings : List String
  result : Except Error (List String)

namespace SymbolsPlan

/-- The answer of a job whose outcome is that of a query. -/
def answered (_ : Fleet) : Outcome → Except Error Json
  | .answered r => r
  | _ => .error .cancelled

def openOn (p : SymbolsPlan) (c : Client) : Client × Except Error String :=
  match c.openFile p.file p.text with
  | .ok (uri, c) => (c, .ok uri)
  | .error e => (c, .error e)

/-- Opens the document on a link and asks for its symbols. -/
def query (p : SymbolsPlan) (i : Nat) (f : Fleet) : Except Error Json × Fleet :=
  let (r, f) : Except Error String × Fleet :=
    (f.onClient i p.openOn (.error (.crashed p.language))).swap
  match r with
  | .error e => (.error e, f)
  | .ok uri =>
    let (r, f) := f.runOne (.task (.lookUp i (.symbols uri) .fresh) answered)
    (r.getD (.error .cancelled), f)

def warnings : Except ShutdownErrors Unit → List String
  | .ok () => []
  | .error e => e.failures.map fun (language, error) =>
      "warning: " ++ language ++ " did not stop cleanly: " ++ error.message

/-- The whole session, in a fleet without servers. -/
def run (p : SymbolsPlan) (launcher : Launcher) : SymbolsResult × Fleet :=
  let f := Fleet.ofConfig p.configs.get? p.timeout launcher
  let (started, f) := f.runOne (.task (.start ⟨p.language, p.root, [], p.policy⟩ .fresh)
    fun _ outcome => match outcome with
      | .started r => r
      | _ => .error .cancelled)
  match started.getD (.error .cancelled) with
  | .error e => (⟨[], .error e⟩, f)
  | .ok i =>
    let (r, f) := p.query i f
    let (stopped, f) := f.runOne (.task (.stopAll .fresh)
      fun _ outcome => match outcome with
        | .allEnded r => r
        | _ => .ok ())
    (⟨warnings (stopped.getD (.ok ())), r.map SymbolTree.listing⟩, f)

end SymbolsPlan

end LanguageHost.Cli
