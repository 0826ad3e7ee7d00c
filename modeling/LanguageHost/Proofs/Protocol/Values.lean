import LanguageHost.Proofs.Json.Reading
import LanguageHost.Protocol.Types

/-!
The values that shapes have. Reading a shape only shows a value as it is written again, and of two
alternatives that are written alike it does not show which was meant; here the value itself is kept. Reading
is this reading, written again.
-/
namespace LanguageHost

/-- A value of a shape: which alternative was taken, what was left out, and which texts are URLs. -/
inductive Typed where
  /-- a value that is as it is written -/
  | plain (j : Json)
  | url (text : String)
  | list (items : List Typed)
  /-- the fields in order, and none for one that is left out -/
  | record (fields : List (String × Option Typed))
  | alternative (place : Nat) (value : Typed)
  | null
  | just (value : Typed)

namespace Typed

mutual

def encode : Typed → Json
  | plain j => j
  | url text => .str text
  | list items => .arr (encodeItems items)
  | record fields => Json.object (encodeFields fields)
  | alternative _ value => value.encode
  | just value => value.encode
  | null => .null

def encodeItems : List Typed → List Json
  | [] => []
  | v :: vs => v.encode :: encodeItems vs

def encodeFields : List (String × Option Typed) → List (String × Json)
  | [] => []
  | (_, none) :: rest => encodeFields rest
  | (name, some v) :: rest => (name, v.encode) :: encodeFields rest

end

mutual

/-- The URLs in a value. -/
def urls : Typed → List String
  | url text => [text]
  | list items => urlsItems items
  | record fields => urlsFields fields
  | alternative _ value => value.urls
  | just value => value.urls
  | plain _ | null => []

def urlsItems : List Typed → List String
  | [] => []
  | v :: vs => v.urls ++ urlsItems vs

def urlsFields : List (String × Option Typed) → List String
  | [] => []
  | (_, none) :: rest => urlsFields rest
  | (_, some v) :: rest => v.urls ++ urlsFields rest

end

theorem encodeItems_eq (vs : List Typed) : encodeItems vs = vs.map encode := by
  induction vs with
  | nil => rfl
  | cons v vs ih => rw [encodeItems, ih, List.map_cons]

end Typed

/-- A field, by whether it has to be there. -/
def Json.Record.field (r : Json.Record) (presence : Presence) (name : String) (value : Json → Option Typed) :
    Option (Option Typed) :=
  match presence with
  | .required => (r.required name value).map some
  | .optional => r.optional name value
  | .nullable => (r.optional name value).map fun v => some (v.getD .null)

namespace Shape

mutual

/-- The value that a shape finds; the fuel is that of `readFrom`. -/
def valueFrom (fuel : Nat) (outer : Shape) (s : Shape) (j : Json) : Option Typed :=
  match s with
  | .url => (j.str?.bind Url.normal?).map .url
  | .list item =>
    match j with
    | .arr items => (items.mapM fun i => valueFrom fuel outer item i).map .list
    | _ => none
  | .record fields =>
    (Json.Record.ofJson? (fields.map Prod.fst) j).bind fun r =>
      (valueFields fuel outer r fields).map .record
  | .choice options => valueFirst fuel outer 0 options j
  | .nullable value =>
    match j with
    | .null => some .null
    | j => (valueFrom fuel outer value j).map .just
  | .loop body => valueFrom fuel body body j
  | .again =>
    match fuel with
    | 0 => none
    | fuel + 1 => valueFrom fuel outer outer j
  | s => (readFrom fuel outer s j).map .plain
termination_by (fuel, sizeOf s)

def valueFields (fuel : Nat) (outer : Shape) (r : Json.Record) (fields : Fields) :
    Option (List (String × Option Typed)) :=
  match fields with
  | [] => some []
  | (name, presence, s) :: rest =>
    (r.field presence name fun j => valueFrom fuel outer s j).bind fun v =>
      (valueFields fuel outer r rest).map ((name, v) :: ·)
termination_by (fuel, sizeOf fields)

/-- The first alternative that fits, with its place. -/
def valueFirst (fuel : Nat) (outer : Shape) (place : Nat) (options : List Shape) (j : Json) :
    Option Typed :=
  match options with
  | [] => none
  | s :: rest =>
    match valueFrom fuel outer s j with
    | some v => some (.alternative place v)
    | none => valueFirst fuel outer (place + 1) rest j
termination_by (fuel, sizeOf options)

end

/-- The value of a shape that is written, if it is one. -/
def value? (s : Shape) (j : Json) : Option Typed := valueFrom (depth j) s s j

section leaves
variable (fuel : Nat) (outer : Shape) (j : Json)

/-! The shapes of values that hold no others. -/

theorem valueFrom_any : valueFrom fuel outer .any j = some (.plain j.canonical) := by
  simp [valueFrom, readFrom]

theorem valueFrom_bool : valueFrom fuel outer .bool j = (j.bool?.map .bool).map .plain := by
  simp [valueFrom, readFrom]

theorem valueFrom_text : valueFrom fuel outer .text j = (j.str?.map .str).map .plain := by
  simp [valueFrom, readFrom]

theorem valueFrom_int (low high : Int) :
    valueFrom fuel outer (.int low high) j = ((j.int? low high).map .int).map .plain := by
  simp [valueFrom, readFrom]

theorem valueFrom_word (options : List String) :
    valueFrom fuel outer (.word options) j = (word? options j).map .plain := by
  simp [valueFrom, readFrom]

end leaves

/-! Reading is writing the value again. -/

theorem required_map {r : Json.Record} {name : String} {f : Json → Option Json} {g : Json → Option Typed}
    (same : ∀ j, f j = (g j).map Typed.encode) :
    r.required name f = (r.required name g).map Typed.encode := by
  unfold Json.Record.required
  cases r.values.lookup name with
  | none => rfl
  | some j => exact same j

theorem optional_map {r : Json.Record} {name : String} {f : Json → Option Json} {g : Json → Option Typed}
    (same : ∀ j, f j = (g j).map Typed.encode) :
    r.optional name f = (r.optional name g).map (Option.map Typed.encode) := by
  unfold Json.Record.optional
  split
  · split <;> rfl
  · rfl
  · rw [same]
    cases g _ <;> rfl

mutual

theorem readFrom_eq (fuel : Nat) (outer s : Shape) (j : Json) :
    readFrom fuel outer s j = (valueFrom fuel outer s j).map Typed.encode := by
  have plain (o : Option Json) : o = (o.map Typed.plain).map Typed.encode := by
    cases o <;> rfl
  cases s with
  | url =>
    rw [readFrom, valueFrom, Option.map_map]
    rfl
  | list item =>
    rw [readFrom.eq_def, valueFrom.eq_def]
    cases j with
    | arr items =>
      simp only [Json.mapM_map (fun i => readFrom_eq fuel outer item i) items, Option.map_map]
      congr 1
      funext vs
      simp [Typed.encode, Typed.encodeItems_eq]
    | _ => rfl
  | record fields =>
    rw [readFrom, valueFrom]
    cases Json.Record.ofJson? (fields.map Prod.fst) j with
    | none => rfl
    | some r =>
      have rest := readFields_eq fuel outer r fields
      simp only [bind, Option.bind_some, rest]
      cases valueFields fuel outer r fields <;> rfl
  | choice options =>
    rw [readFrom, valueFrom]
    exact readFirst_eq fuel outer 0 options j
  | nullable value =>
    rw [readFrom.eq_def, valueFrom.eq_def]
    cases j with
    | null => rfl
    | _ =>
      simp only [readFrom_eq fuel outer value, Option.map_map]
      rfl
  | loop body =>
    rw [readFrom, valueFrom]
    exact readFrom_eq fuel body body j
  | again =>
    cases fuel with
    | zero => rw [readFrom, valueFrom]; rfl
    | succ fuel =>
      rw [readFrom, valueFrom]
      exact readFrom_eq fuel outer outer j
  | _ =>
    rw [valueFrom]
    · exact plain _
    all_goals nofun
termination_by (fuel, sizeOf s)

theorem readFields_eq (fuel : Nat) (outer : Shape) (r : Json.Record) (fields : Fields) :
    readFields fuel outer r fields = (valueFields fuel outer r fields).map Typed.encodeFields := by
  cases fields with
  | nil => rw [readFields, valueFields]; rfl
  | cons field rest =>
    obtain ⟨name, presence, s⟩ := field
    have later := readFields_eq fuel outer r rest
    have read := readFrom_eq fuel outer s
    rw [readFields.eq_def, valueFields.eq_def]
    cases presence with
    | required =>
      simp only [Json.Record.field, required_map read, later, bind]
      cases r.required name fun j => valueFrom fuel outer s j with
      | none => rfl
      | some v => cases valueFields fuel outer r rest <;> rfl
    | optional =>
      simp only [Json.Record.field, optional_map read, later, bind]
      cases r.optional name fun j => valueFrom fuel outer s j with
      | none => rfl
      | some v => cases v <;> cases valueFields fuel outer r rest <;> rfl
    | nullable =>
      simp only [Json.Record.field, optional_map read, later, bind]
      cases r.optional name fun j => valueFrom fuel outer s j with
      | none => rfl
      | some v => cases v <;> cases valueFields fuel outer r rest <;> rfl
termination_by (fuel, sizeOf fields)

theorem readFirst_eq (fuel : Nat) (outer : Shape) (place : Nat) (options : List Shape) (j : Json) :
    readFirst fuel outer options j = (valueFirst fuel outer place options j).map Typed.encode := by
  cases options with
  | nil => rw [readFirst, valueFirst]; rfl
  | cons s rest =>
    rw [readFirst, valueFirst, readFrom_eq fuel outer s j]
    cases valueFrom fuel outer s j with
    | none => exact readFirst_eq fuel outer (place + 1) rest j
    | some v => rfl
termination_by (fuel, sizeOf options)

end

theorem read?_eq (s : Shape) (j : Json) : s.read? j = (s.value? j).map Typed.encode :=
  readFrom_eq (depth j) s s j

end Shape

end LanguageHost
