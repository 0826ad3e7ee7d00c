import LanguageHost.Toml.Scan

/-!
TOML documents. `Toml.ofText?` gives the value that a document writes, tables as objects; a table is
defined once, by one header or by the dotted keys of one section.
-/
namespace LanguageHost.Toml

open Scan

mutual

/-- What stands under a key. -/
inductive Node where
  | value (j : Json)
  | table (t : Section)
  | tables (ts : List Section)

/-- A table under construction. `implicit` ones exist only because a longer key runs through them;
`dotted` ones come from a dotted key. -/
inductive Section where
  | mk (implicit dotted : Bool) (members : List (String × Node))

end

instance : Inhabited Section := ⟨.mk false false []⟩

namespace Section

def implicit : Section → Bool
  | .mk i _ _ => i

def dotted : Section → Bool
  | .mk _ d _ => d

def members : Section → List (String × Node)
  | .mk _ _ ms => ms

def put (key : String) (node : Node) (t : Section) : Section :=
  .mk t.implicit t.dotted
    (if (t.members.lookup key).isSome then
      t.members.map fun (k, n) => if k = key then (k, node) else (k, n)
    else t.members ++ [(key, node)])

def drop (key : String) (t : Section) : Section :=
  .mk t.implicit t.dotted (t.members.filter fun (k, _) => k ≠ key)

/-- Changes the table at the end of a path. Missing tables on the way are made; the last of an array of
tables is entered; a dotted path may not run through a table that a header defines. -/
def change (dotted : Bool) (f : Section → Option Section) :
    List String → Section → Option Section
  | [], t => f t
  | key :: path, t =>
    match t.members.lookup key with
    | none => do
      let inner ← change dotted f path (.mk true dotted [])
      pure (t.put key (.table inner))
    | some (.value _) => none
    | some (.table inner) =>
      if dotted ∧ !inner.implicit then none
      else do
        let inner ← change dotted f path inner
        pure (t.put key (.table inner))
    | some (.tables ts) =>
      match ts.reverse with
      | [] => none
      | last :: before => do
        let last ← change dotted f path last
        pure (t.put key (.tables (before.reverse ++ [last])))

/-- Enters a value under a dotted key. -/
def enter (path : List String) (value : Json) (t : Section) : Option Section :=
  match path.reverse with
  | [] => none
  | key :: before =>
    change true (fun inner =>
      if inner.dotted = before.isEmpty then none
      else if (inner.members.lookup key).isSome then none
      else some (inner.put key (.value value))) before.reverse t

end Section

mutual

def Node.toJson : Node → Json
  | .value j => j
  | .table t => t.toJson
  | .tables ts => .arr (sectionsToJson ts)

def Section.toJson : Section → Json
  | .mk _ _ members => .obj (membersToJson members)

def membersToJson : List (String × Node) → List (String × Json)
  | [] => []
  | (k, n) :: rest => (k, n.toJson) :: membersToJson rest

def sectionsToJson : List Section → List Json
  | [] => []
  | t :: ts => t.toJson :: sectionsToJson ts

end

/-- How deeply arrays and inline tables may be nested, and how many parts a key may have. -/
def depthLimit : Nat := 79

mutual

/-- A value. `depth` is how many containers may still be entered. -/
def value (depth fuel : Nat) : Scan Json :=
  match fuel with
  | 0 => fail
  | fuel + 1 => do
    match ← peek with
    | some '"' | some '\'' => return .str (← string)
    | some '[' =>
      match depth with
      | 0 => fail
      | depth + 1 =>
        char '['
        return .arr (← items depth fuel)
    | some '{' =>
      match depth with
      | 0 => fail
      | depth + 1 =>
        char '{'
        spaces
        if (← peek) = some '}' then
          char '}'
          pure (.obj [])
        else inlineMembers depth fuel (.mk false false [])
    | some 't' => word "true"; pure (.bool true)
    | some 'f' => word "false"; pure (.bool false)
    | _ => orElse moment (orElse float integer)

/-- The items of an array after its opening bracket. -/
def items (depth fuel : Nat) : Scan (List Json) :=
  match fuel with
  | 0 => fail
  | fuel + 1 => do
    gap ((← get).length + 1)
    if (← peek) = some ']' then
      char ']'
      pure []
    else
      let j ← value depth fuel
      gap ((← get).length + 1)
      match ← any with
      | ']' => pure [j]
      | ',' => return j :: (← items depth fuel)
      | _ => fail

/-- The members of an inline table after its opening brace; there is at least one. -/
def inlineMembers (depth fuel : Nat) (t : Section) : Scan Json :=
  match fuel with
  | 0 => fail
  | fuel + 1 => do
    let path ← key depthLimit
    char '='
    spaces
    let j ← value depth fuel
    spaces
    match t.enter path j with
    | none => fail
    | some t =>
      match ← any with
      | '}' => pure t.toJson
      | ',' => inlineMembers depth fuel t
      | _ => fail

end

/-- A document read so far: the finished part, and the section that the last header opened. -/
structure Draft where
  root : Section
  path : List String
  /-- whether the open section is one of an array of tables -/
  repeated : Bool
  current : Section

namespace Draft

def empty : Draft := ⟨.mk false false [], [], false, .mk false false []⟩

def close (d : Draft) : Option Section :=
  match d.path.reverse with
  | [] => some d.current
  | key :: before =>
    d.root.change false (fun t =>
      match t.members.lookup key with
      | none => some (t.put key (if d.repeated then .tables [d.current] else .table d.current))
      | some (.tables ts) =>
        if d.repeated then some (t.put key (.tables (ts ++ [d.current]))) else none
      | some _ => none) before.reverse

/-- Opens the section of a header. Only a table that is merely implied may be there already. -/
def openTable (d : Draft) (path : List String) : Option Draft := do
  let root ← d.close
  match path.reverse with
  | [] => none
  | key :: before =>
    let look (t : Section) : Option (Section × Section) :=
      match t.members.lookup key with
      | none => some (t, .mk false false [])
      | some (.table old) =>
        if old.implicit ∧ !old.dotted then some (t.drop key, .mk false false old.members) else none
      | some _ => none
    -- The section found at the end of the path is the one that `look` finds there.
    let root' ← root.change false (fun t => (look t).map Prod.fst) before.reverse
    let current ← find before.reverse root look
    pure ⟨root', path, false, current⟩
where
  find (path : List String) (t : Section) (look : Section → Option (Section × Section)) :
      Option Section :=
    match path with
    | [] => (look t).map Prod.snd
    | key :: rest =>
      match t.members.lookup key with
      | none => (look (.mk true false [])).map Prod.snd
      | some (.table inner) => find rest inner look
      | some (.tables ts) => ts.getLast?.bind fun last => find rest last look
      | some (.value _) => none

/-- Opens one more section of an array of tables. -/
def openRepeated (d : Draft) (path : List String) : Option Draft := do
  let root ← d.close
  match path.reverse with
  | [] => none
  | key :: before =>
    let root ← root.change false (fun t =>
      match t.members.lookup key with
      | none => some (t.put key (.tables []))
      | some (.tables _) => some t
      | some _ => none) before.reverse
    pure ⟨root, path, true, .mk false false []⟩

end Draft

/-- One line: a header, a key with its value, or nothing. -/
def line (d : Draft) : Scan Draft := do
  spaces
  match ← peek with
  | some '[' =>
    if ← ahead "[[" then
      word "[["
      let path ← key depthLimit
      word "]]"
      lineEnd
      match d.openRepeated path with
      | some d => pure d
      | none => fail
    else
      char '['
      let path ← key depthLimit
      char ']'
      lineEnd
      match d.openTable path with
      | some d => pure d
      | none => fail
  | some '#' | some '\n' | some '\r' | none => lineEnd; pure d
  | some _ =>
    let path ← key depthLimit
    char '='
    spaces
    let j ← value depthLimit ((← get).length + 1)
    lineEnd
    match d.current.enter path j with
    | some t => pure { d with current := t }
    | none => fail

def lines (fuel : Nat) (d : Draft) : Scan Draft :=
  match fuel with
  | 0 => fail
  | fuel + 1 => do
    if (← get).isEmpty then pure d else lines fuel (← line d)

/-- The value of a document. A byte order mark in front is skipped. -/
def ofText? (s : String) : Option Json := do
  let cs := match s.toList with
    | '\uFEFF' :: rest => rest
    | cs => cs
  let (d, _) ← (lines (cs.length + 1) .empty).run cs
  pure (← d.close).toJson

end LanguageHost.Toml
