import LanguageHost.Error
import LanguageHost.Table
import LanguageHost.Text.Utf8

/-!
A file tree and the operations on it, with the reasons for which they fail. An operation finds its place
first (`Files.locate`), then changes one entry of one directory.
-/
namespace LanguageHost

/-- What stands under a name. -/
inductive Files where
  | file (content : Octets) (executable : Bool)
  | link (target : Path)
  | dir (entries : List (String × Files))
deriving Inhabited

namespace Files

def empty : Files := .dir []

def entries : Files → List (String × Files)
  | .dir es => es
  | _ => []

def isDirectory : Files → Bool
  | .dir _ => true
  | _ => false

/-- What stands at the end of a chain of names; links are not followed. -/
def get? (t : Files) : List String → Option Files
  | [] => some t
  | name :: rest =>
    match t with
    | .dir es => (Table.get? name es).bind fun child => child.get? rest
    | _ => none

/-- Puts an entry in place of what stands at the end of a chain of names, or takes it away. Directories
on the way have to be there. -/
def put (entry : Option Files) (t : Files) : List String → Files
  | [] => entry.getD t
  | [name] =>
    match t with
    | .dir es =>
      match entry with
      | some e => .dir (Table.insert name e es)
      | none => .dir (Table.erase name es)
    | other => other
  | name :: rest =>
    match t with
    | .dir es =>
      match Table.get? name es with
      | some child => .dir (Table.insert name (child.put entry rest) es)
      | none => .dir es
    | other => other

/-- How many links one path may run through. -/
def linkLimit : Nat := 40

/-- How many octets a name may have. -/
def nameLimit : Nat := 255

/-- How many octets a path may have. -/
def pathLimit : Nat := 4095

/-- Refuses a path for how it is written, wherever it leads. -/
def check (p : Path) : Except IoError Unit :=
  if p.text.toList.contains '\x00' then .error .zeroInPath
  else if p.text = "" then .error .notFound
  else if pathLimit < p.text.utf8ByteSize then .error .nameTooLong
  else .ok ()

/-- The chain of names that the components lead to from the directory `done`. Every name but the last
has to be there, and a link on the way is followed, the last one only if `follow`. -/
def walk (root : Files) (follow : Bool) (links : Nat) (done : List String)
    (todo : List Path.Component) : Except IoError (List String) :=
  match todo with
  | [] => .ok done
  | .root :: rest => walk root follow links [] rest
  | .here :: rest => walk root follow links done rest
  | .parent :: rest => walk root follow links done.dropLast rest
  | .name s :: rest =>
    match root.get? done with
    | some (.dir es) =>
      if nameLimit < s.utf8ByteSize then .error .nameTooLong
      else match Table.get? s es with
      | none => if rest.isEmpty then .ok (done ++ [s]) else .error .notFound
      | some (.link target) =>
        if rest.isEmpty ∧ !follow then .ok (done ++ [s])
        else match links with
          | 0 => .error .tooManyLinks
          | links + 1 => walk root follow links done (target.components ++ rest)
      | some (.file _ _) => if rest.isEmpty then .ok (done ++ [s]) else .error .notDirectory
      | some (.dir _) => walk root follow links (done ++ [s]) rest
    | some _ => .error .notDirectory
    | none => .error .notFound
termination_by (links, todo.length)

/-- The chain of names that an absolute path leads to. The empty path leads nowhere. -/
def locate (t : Files) (follow : Bool) (p : Path) : Except IoError (List String) := do
  check p
  t.walk follow linkLimit [] p.components

/-- What stands at a path, at the end of all links. -/
def find (t : Files) (p : Path) : Except IoError Files := do
  match t.get? (← t.locate true p) with
  | some entry => .ok entry
  | none => .error .notFound

def exists? (t : Files) (p : Path) : Bool := (t.find p).isOk

def isDirectoryAt (t : Files) (p : Path) : Bool :=
  match t.find p with
  | .ok (.dir _) => true
  | _ => false

/-- Whether a file that may be run stands at a path. -/
def isProgram (t : Files) (p : Path) : Bool :=
  match t.find p with
  | .ok (.file _ executable) => executable
  | _ => false

def read (t : Files) (p : Path) : Except IoError Octets := do
  match ← t.find p with
  | .file content _ => .ok content
  | _ => .error .isDirectory

def readText (t : Files) (p : Path) : Except IoError String := do
  match Utf8.toString? (← t.read p) with
  | some s => .ok s
  | none => .error .notUtf8

/-- The names in a directory, in order. -/
def list (t : Files) (p : Path) : Except IoError (List String) := do
  match ← t.find p with
  | .dir es => .ok (Table.keys es)
  | _ => .error .notDirectory

/-- Writes a file; one that is there keeps its leave to run. -/
def write (t : Files) (p : Path) (content : Octets) : Except IoError Files := do
  let place ← t.locate true p
  match t.get? place with
  | some (.dir _) => .error .isDirectory
  | some (.file _ executable) => .ok (t.put (some (.file content executable)) place)
  | _ => .ok (t.put (some (.file content false)) place)

def allowRun (t : Files) (p : Path) : Except IoError Files := do
  let place ← t.locate true p
  match t.get? place with
  | some (.file content _) => .ok (t.put (some (.file content true)) place)
  | some _ => .ok t
  | none => .error .notFound

/-- Makes a link; nothing may be there. -/
def makeLink (t : Files) (p target : Path) : Except IoError Files := do
  let place ← t.locate false p
  match t.get? place with
  | some _ => .error .exists
  | none => .ok (t.put (some (.link target)) place)

/-- Makes one directory; nothing may be there. -/
def makeDir (t : Files) (p : Path) : Except IoError Files := do
  let place ← t.locate false p
  match t.get? place with
  | some _ => .error .exists
  | none => .ok (t.put (some empty) place)

/-- Makes the directories along the components, as far as they are missing. -/
def makeDirsFrom (t : Files) (done : List Path.Component) : List Path.Component → Except IoError Files
  | [] => .ok t
  | c :: rest => do
    let here := Path.ofComponents (done ++ [c])
    let t ←
      if t.isDirectoryAt here then pure t
      else match t.makeDir here with
        | .ok t => pure t
        | .error e => .error (if rest.isEmpty ∨ e ≠ .exists then e else .notDirectory)
    t.makeDirsFrom (done ++ [c]) rest

/-- Makes a directory and those above it, as far as they are missing. -/
def makeDirs (t : Files) (p : Path) : Except IoError Files := do
  if p.text ≠ "" then check p
  t.makeDirsFrom [] p.components

def removeFile (t : Files) (p : Path) : Except IoError Files := do
  let place ← t.locate false p
  match t.get? place with
  | some (.dir _) => .error .isDirectory
  | some _ => .ok (t.put none place)
  | none => .error .notFound

/-- Removes a directory with all that is in it. Of a link only the link goes. -/
def removeTree (t : Files) (p : Path) : Except IoError Files := do
  let place ← t.locate false p
  match t.get? place with
  | some (.file _ _) => .error .notDirectory
  | some _ => .ok (t.put none place)
  | none => .error .notFound

/-- Moves an entry. A file takes the place of a file, a directory that of an empty one. -/
def rename (t : Files) (p q : Path) : Except IoError Files := do
  let source ← t.locate false p
  let target ← t.locate false q
  match t.get? source with
  | none => .error .notFound
  | some entry =>
    let moved := (t.put none source).put (some entry) target
    if source = target then .ok t
    else if source.isPrefixOf target then .error .invalidArgument
    else match entry.isDirectory, t.get? target with
      | _, none => .ok moved
      | true, some (.dir []) => .ok moved
      | true, some (.dir _) => .error .notEmpty
      | true, some _ => .error .notDirectory
      | false, some (.dir _) => .error .isDirectory
      | false, some _ => .ok moved

end Files

end LanguageHost
