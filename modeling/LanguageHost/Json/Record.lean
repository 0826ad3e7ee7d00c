import LanguageHost.Json.Basic

/-!
Records read from JSON. A record is an object, in which unknown members are ignored and no known one is
repeated, or the array of its fields in their order. Values are never converted to another type.
-/
namespace LanguageHost.Json

def bool? : Json → Option Bool
  | .bool b => some b
  | _ => none

/-- An integer from `low` to `high`. -/
def int? (low high : Int) : Json → Option Int
  | .int n => if low ≤ n ∧ n ≤ high then some n else none
  | _ => none

def int32? : Json → Option Int := int? (-0x80000000) 0x7fffffff

/-- A natural number of at most `bits` bits. -/
def nat? (bits : Nat) (j : Json) : Option Nat := (int? 0 (Int.ofNat (Nat.pow 2 bits - 1)) j).map Int.toNat

def list? (item : Json → Option α) : Json → Option (List α)
  | .arr items => items.mapM item
  | _ => none

/-- An object with any keys; of a repeated key the last value counts. -/
def table? (value : Json → Option α) : Json → Option (Table α)
  | .obj members => do
    let entries ← members.mapM fun (k, j) => (value j).map fun a => (k, a)
    pure (Table.ofList entries)
  | _ => none

/-- Any value at all. -/
def free? (j : Json) : Option Json := some (canonical j)

/-- The known fields that are there. -/
structure Record where
  /-- whether the fields stood in an array -/
  positional : Bool
  values : List (String × Json)

namespace Record

def occurrences (name : String) (members : List (String × Json)) : Nat :=
  members.countP fun (k, _) => k == name

def ofJson? (names : List String) : Json → Option Record
  | .obj members =>
    if names.all fun n => occurrences n members ≤ 1 then some ⟨false, members⟩ else none
  | .arr items => if items.length ≤ names.length then some ⟨true, names.zip items⟩ else none
  | _ => none

/-- As `ofJson?`, but the items of an array that follow the last field are ignored. -/
def ofLoose? (names : List String) : Json → Option Record
  | .arr items => ofJson? names (.arr (items.take names.length))
  | j => ofJson? names j

def required (r : Record) (name : String) (value : Json → Option α) : Option α :=
  (r.values.lookup name).bind value

/-- A field that may be null, and may be missing unless the record is an array. -/
def optional (r : Record) (name : String) (value : Json → Option α) : Option (Option α) :=
  match r.values.lookup name with
  | none => if r.positional then none else some none
  | some .null => some none
  | some j => (value j).map some

/-- A field that may be missing. -/
def defaulted (r : Record) (name : String) (missing : α) (value : Json → Option α) : Option α :=
  match r.values.lookup name with
  | none => some missing
  | some j => value j

end Record

end LanguageHost.Json
