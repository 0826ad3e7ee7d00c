import LanguageHost.Json.Record
import LanguageHost.Url.Parser

/-!
Shapes of protocol values. `Shape.read?` takes a JSON value for a value of a shape and writes it again:
unknown members and absent optional ones are left out, URLs are normal, and of several alternatives the
first that fits is meant. A shape that holds itself is a `loop`, and refers to itself by `again`.
-/
namespace LanguageHost

inductive Presence where
  | required
  /-- left out when it is absent or null -/
  | optional
  /-- written as null when it is absent -/
  | nullable
deriving DecidableEq, Repr

inductive Shape where
  /-- any value at all -/
  | any
  | bool
  | text
  | int (low high : Int)
  /-- a number of single precision -/
  | single
  /-- a number of double precision -/
  | double
  | url
  /-- one of some words -/
  | word (options : List String)
  | list (item : Shape)
  /-- an object with any keys, or with URLs for keys -/
  | table (urls : Bool) (value : Shape)
  /-- fields in an object, or in an array in their order -/
  | record (fields : List (String × Presence × Shape))
  /-- fields in an object only; other members are kept if they have the shape `rest` -/
  | object (fields : List (String × Presence × Shape)) (rest : Option Shape)
  /-- the first alternative that fits -/
  | choice (options : List Shape)
  /-- a record chosen by the word that one field holds -/
  | tagged (key : String) (variants : List (String × List (String × Presence × Shape)))
  /-- a value or null -/
  | nullable (value : Shape)
  /-- a shape that may hold itself -/
  | loop (body : Shape)
  /-- the innermost loop around this place once more -/
  | again

namespace Shape

abbrev Fields := List (String × Presence × Shape)

/-- The nearest number of single precision; null when it is too large for one. -/
def single? : Json → Option Json
  | .int n =>
    match BinaryFormat.single.round? n.natAbs 1 with
    | some s => some (.float (.ofSingle (n < 0) s))
    | none => some .null
  | .float x =>
    match x.toSingle? with
    | some s => some (.float (.ofSingle x.isNegative s))
    | none => some .null
  | _ => none

def double? : Json → Option Json
  | .int n => some (.float (.ofInt n))
  | .float x => some (.float x)
  | _ => none

def word? (options : List String) : Json → Option Json
  | .str s | .obj [(s, .null)] => if options.contains s then some (.str s) else none
  | _ => none

/-- The variant that a tag names, by its word or its number. -/
def variant? (variants : List (String × Fields)) : Json → Option (String × Fields)
  | .str s => variants.find? fun (w, _) => w == s
  | .int n => if n < 0 then none else variants[n.toNat]?
  | _ => none

/-- How deep a value is nested. -/
def depth : Json → Nat
  | .arr items => depthItems items + 1
  | .obj members => depthMembers members + 1
  | _ => 0
where
  depthItems : List Json → Nat
    | [] => 0
    | j :: js => max (depth j) (depthItems js)
  depthMembers : List (String × Json) → Nat
    | [] => 0
    | (_, j) :: rest => max (depth j) (depthMembers rest)

mutual

/-- Reads a value of a shape. `outer` is the loop that `again` stands for, `fuel` how often it may. -/
def readFrom (fuel : Nat) (outer : Shape) (s : Shape) (j : Json) : Option Json :=
  match s with
  | .any => some j.canonical
  | .bool => j.bool?.map .bool
  | .text => j.str?.map .str
  | .int low high => (j.int? low high).map .int
  | .single => single? j
  | .double => double? j
  | .url => (j.str?.bind Url.normal?).map .str
  | .word options => word? options j
  | .list item =>
    match j with
    | .arr items => (items.mapM fun i => readFrom fuel outer item i).map .arr
    | _ => none
  | .table urls value =>
    match j with
    | .obj members => do
      let entries ← members.mapM fun (k, v) => do
        let k ← if urls then Url.normal? k else some k
        pure (k, ← readFrom fuel outer value v)
      pure (Json.object entries)
    | _ => none
  | .record fields => do
    let r ← Json.Record.ofJson? (fields.map Prod.fst) j
    pure (Json.object (← readFields fuel outer r fields))
  | .object fields rest =>
    match j with
    | .obj members => do
      let r ← Json.Record.ofJson? (fields.map Prod.fst) (.obj members)
      let known ← readFields fuel outer r fields
      let others := members.filter fun (k, _) => !(fields.any fun (n, _, _) => n == k)
      let kept ← match rest with
        | none => some []
        | some s => others.mapM fun (k, v) => do pure (k, ← readFrom fuel outer s v)
      pure (Json.object (kept ++ known))
    | _ => none
  | .choice options => readFirst fuel outer options j
  | .tagged key variants =>
    match j with
    | .obj members => do
      if 1 < Json.Record.occurrences key members then none
      else
        let (w, fields) ← variant? variants (← members.lookup key)
        let r ← Json.Record.ofJson? (fields.map Prod.fst)
          (.obj (members.filter fun (k, _) => k != key))
        pure (Json.object ((key, .str w) :: (← readVariant fuel outer variants w r)))
    | .arr (tag :: items) => do
      let (w, fields) ← variant? variants tag
      let r ← Json.Record.ofJson? (fields.map Prod.fst) (.arr items)
      pure (Json.object ((key, .str w) :: (← readVariant fuel outer variants w r)))
    | _ => none
  | .nullable value =>
    match j with
    | .null => some .null
    | j => readFrom fuel outer value j
  | .loop body => readFrom fuel body body j
  | .again =>
    match fuel with
    | 0 => none
    | fuel + 1 => readFrom fuel outer outer j
termination_by (fuel, sizeOf s)

/-- The fields of a record, as they are written again. -/
def readFields (fuel : Nat) (outer : Shape) (r : Json.Record) (fields : Fields) :
    Option (List (String × Json)) :=
  match fields with
  | [] => some []
  | (name, presence, s) :: rest => do
    let read (j : Json) : Option Json := readFrom fuel outer s j
    let here ← match presence with
      | .required => (r.required name read).map fun j => [(name, j)]
      | .optional => (r.optional name read).map fun o => (o.map fun j => (name, j)).toList
      | .nullable => (r.optional name read).map fun o => [(name, o.getD .null)]
    return here ++ (← readFields fuel outer r rest)
termination_by (fuel, sizeOf fields)

/-- The fields of the variant that a word names. -/
def readVariant (fuel : Nat) (outer : Shape) (variants : List (String × Fields)) (w : String)
    (r : Json.Record) : Option (List (String × Json)) :=
  match variants with
  | [] => none
  | (v, fields) :: rest =>
    if v = w then readFields fuel outer r fields else readVariant fuel outer rest w r
termination_by (fuel, sizeOf variants)

/-- The first alternative that fits. -/
def readFirst (fuel : Nat) (outer : Shape) (options : List Shape) (j : Json) : Option Json :=
  match options with
  | [] => none
  | s :: rest =>
    match readFrom fuel outer s j with
    | some r => some r
    | none => readFirst fuel outer rest j
termination_by (fuel, sizeOf options)

end

/-- The value, if it has the shape, as it is written again. -/
def read? (s : Shape) (j : Json) : Option Json := readFrom (depth j) s s j

end Shape

end LanguageHost
