import LanguageHost.Text.Blank

/-!
File paths as text, read by their components. `.` components and repeated separators mean nothing;
`..` is kept, save by `Path.clean`, which takes it back lexically.
-/
namespace LanguageHost

/-- A path as it is written. -/
structure Path where
  text : String
deriving DecidableEq, Inhabited, Repr

namespace Path

inductive Component where
  | root
  /-- a leading `.` of a relative path -/
  | here
  | parent
  | name (s : String)
deriving DecidableEq, Repr

def isAbsolute (p : Path) : Bool := p.text.toList.head? == some '/'

/-- The components; a `.` counts only at the front of a relative path. -/
def components (p : Path) : List Component :=
  let pieces := Text.split '/' p.text
  let rest (ps : List String) : List Component :=
    ps.filterMap fun s =>
      if s = "" ∨ s = "." then none else if s = ".." then some .parent else some (.name s)
  if p.isAbsolute then .root :: rest pieces
  else match pieces with
    | "." :: ps => .here :: rest ps
    | ps => rest ps

/-- Whether two paths have the same components. -/
def same (p q : Path) : Bool := p.components == q.components

def Component.text : Component → String
  | .root => "/"
  | .here => "."
  | .parent => ".."
  | .name s => s

/-- The shortest way to write the components. -/
def ofComponents : List Component → Path
  | [] => ⟨""⟩
  | .root :: rest => ⟨"/" ++ String.intercalate "/" (rest.map Component.text)⟩
  | cs => ⟨String.intercalate "/" (cs.map Component.text)⟩

/-- `q` below `p`, or `q` itself when it is absolute. -/
def join (p : Path) (q : String) : Path :=
  if (Path.mk q).isAbsolute then ⟨q⟩
  else if p.text = "" then ⟨q⟩
  else if Text.endsWith "/" p.text then ⟨p.text ++ q⟩
  else ⟨p.text ++ "/" ++ q⟩

instance : HDiv Path String Path := ⟨join⟩

/-- The last component when it is a name. -/
def fileName? (p : Path) : Option String :=
  match p.components.getLast? with
  | some (.name s) => some s
  | _ => none

/-- The path less its last component; none for the root and the empty path. -/
def parent? (p : Path) : Option Path :=
  let cs := p.components
  match cs.getLast? with
  | none | some .root => none
  | some _ => some (ofComponents cs.dropLast)

/-- The name before and after its last dot; a dot at the front of the name separates nothing. -/
def cutExtension (name : String) : String × Option String :=
  let back := name.toList.reverse
  match Text.cut? '.' back with
  | some (ending, rest) =>
    if rest.isEmpty then (name, none)
    else (String.ofList rest.reverse, some (String.ofList ending.reverse))
  | none => (name, none)

def extension? (p : Path) : Option String := p.fileName?.bind fun name => (cutExtension name).2

/-- The path with `ending` for the extension of its last name. -/
def withExtension (p : Path) (ending : String) : Path :=
  match p.fileName?, p.components.dropLast with
  | some name, dir =>
    let stem := (cutExtension name).1
    let last := if ending = "" then stem else stem ++ "." ++ ending
    ofComponents (dir ++ [.name last])
  | none, _ => p

/-- One component of a clean path: `..` takes back a name, vanishes at the root, and stays where there
is nothing to take back. -/
def cleanStep (done : List Component) : Component → List Component
  | .root => [.root]
  | .here => done
  | .parent =>
    match done with
    | .name _ :: rest => rest
    | [.root] => [.root]
    | _ => .parent :: done
  | .name s => .name s :: done

/-- The lexically shortest path to the same place, `.` when nothing is left. -/
def clean (p : Path) : Path :=
  let cs := (p.components.foldl cleanStep []).reverse
  if cs.isEmpty then ⟨"."⟩ else ofComponents cs

end Path

end LanguageHost
