import LanguageHost.Decimal.Shortest
import LanguageHost.Table

/-!
JSON values. An object is the list of its members as written, repetitions included; `Json.canonical`
is the meaning of a free-form value: members sorted by key, the last of a repeated key kept.
-/
namespace LanguageHost

inductive Json where
  | null
  | bool (b : Bool)
  | int (n : Int)
  | float (x : Binary64)
  | str (s : String)
  | arr (items : List Json)
  | obj (members : List (String × Json))
deriving Inhabited, Repr

namespace Json

mutual

def beq : Json → Json → Bool
  | .null, .null => true
  | .bool a, .bool b => a == b
  | .int a, .int b => a == b
  | .float a, .float b => a.bits == b.bits
  | .str a, .str b => a == b
  | .arr a, .arr b => beqItems a b
  | .obj a, .obj b => beqMembers a b
  | _, _ => false

def beqItems : List Json → List Json → Bool
  | [], [] => true
  | a :: as, b :: bs => beq a b && beqItems as bs
  | _, _ => false

def beqMembers : List (String × Json) → List (String × Json) → Bool
  | [], [] => true
  | (k, a) :: as, (l, b) :: bs => k == l && beq a b && beqMembers as bs
  | _, _ => false

end

instance : BEq Json := ⟨beq⟩

mutual

/-- The free-form value that is meant: sorted objects, and null for what no JSON number can be. -/
def canonical : Json → Json
  | .arr items => .arr (canonicalItems items)
  | .obj members => .obj (Table.ofList (canonicalMembers members))
  | .float x => if x.isFinite then .float x else .null
  | other => other

def canonicalItems : List Json → List Json
  | [] => []
  | j :: js => canonical j :: canonicalItems js

def canonicalMembers : List (String × Json) → List (String × Json)
  | [] => []
  | (k, j) :: rest => (k, canonical j) :: canonicalMembers rest

end

def object (members : List (String × Json)) : Json := .obj (Table.ofList members)

def get? (key : String) : Json → Option Json
  | .obj members => members.lookup key
  | _ => none

def str? : Json → Option String
  | .str s => some s
  | _ => none

def ofOption (f : α → Json) : Option α → Json
  | none => .null
  | some a => f a

def ofStrings (ss : List String) : Json := .arr (ss.map .str)

def ofStringTable (table : Table String) : Json := .obj (table.map fun (k, v) => (k, .str v))

end Json

end LanguageHost
