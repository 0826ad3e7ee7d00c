import LanguageHost.Machine.Process

/-!
Programs as data: what the host does is a tree of calls to the machine, each with a continuation for its
answer. A machine is whatever answers calls, so the same program runs on a model of one, on one whose
calls fail at will, and on the real one.
-/
namespace LanguageHost

inductive FileKind where
  | file | directory | link
deriving DecidableEq, Repr

/-- How a command runs. -/
inductive RunMode where
  /-- its lines are reported, and cancelling stops it -/
  | reported
  /-- its lines are kept back, and cancelling stops it -/
  | quiet
  /-- its lines are kept back, and nothing stops it -/
  | steady
deriving DecidableEq, Repr

/-- How a command went: the lines read from it, and how it ended. -/
structure RunReport where
  lines : List String
  outcome : Except Error Unit

inductive BodyEnd where
  | complete
  /-- nothing more comes, and the connection stays open -/
  | stalled
  | broken (reason : String)
deriving DecidableEq, Repr

/-- What a server on the network replies. -/
structure Reply where
  status : Nat
  /-- where else to ask -/
  location : Option String
  body : Octets
  ending : BodyEnd

inductive Call : Type → Type where
  | readFile (p : Path) : Call (Except IoError Octets)
  | writeFile (p : Path) (content : Octets) : Call (Except IoError Unit)
  | makeDirs (p : Path) : Call (Except IoError Unit)
  | rename (p q : Path) : Call (Except IoError Unit)
  | removeTree (p : Path) : Call (Except IoError Unit)
  | removeFile (p : Path) : Call (Except IoError Unit)
  | allowRun (p : Path) : Call (Except IoError Unit)
  | list (p : Path) : Call (Except IoError (List String))
  /-- what stands at a path; a link is followed if `follow` -/
  | kind (p : Path) (follow : Bool) : Call (Except IoError FileKind)
  /-- the absolute path without links to what stands at a path -/
  | canonical (p : Path) : Call (Except IoError Path)
  | envVar (name : String) : Call (Option String)
  /-- the home directory of the account that the host runs under -/
  | accountHome : Call (Option Path)
  | workingDir : Call Path
  /-- the file that a program name stands for -/
  | findProgram (name : String) : Call (Option Path)
  | run (c : Command) (mode : RunMode) : Call RunReport
  /-- reports a line -/
  | tell (line : String) : Call Unit
  /-- whether somebody has cancelled -/
  | cancelled : Call Bool
  /-- waits for somebody to cancel -/
  | awaitCancel : Call Unit
  /-- asks for what a URL names; there may be nobody to reply -/
  | fetch (url agent : String) : Call (Option Reply)
  | now : Call String

inductive Program (α : Type) : Type 1 where
  | done (a : α)
  | call {β : Type} (c : Call β) (next : β → Program α)

namespace Program

def bind (p : Program α) (f : α → Program β) : Program β :=
  match p with
  | done a => f a
  | call c next => call c fun b => (next b).bind f

instance : Monad Program where
  pure := done
  bind := bind

theorem bind_done (p : Program α) : p.bind done = p := by
  induction p with
  | done a => rfl
  | call c next ih => simp only [bind]; congr; funext b; exact ih b

theorem bind_assoc (p : Program α) (f : α → Program β) (g : β → Program γ) :
    (p.bind f).bind g = p.bind fun a => (f a).bind g := by
  induction p with
  | done a => rfl
  | call c next ih => simp only [bind]; congr; funext b; exact ih b

/-- One call, and its answer. -/
def ask (c : Call α) : Program α := call c done

/-- A program that may end with an error. -/
abbrev Fallible (α : Type) := ExceptT Error Program α

/-- A file operation, its refusal an error. -/
def io (c : Call (Except IoError α)) : Fallible α :=
  ExceptT.mk (do
    match ← ask c with
    | .ok a => pure (.ok a)
    | .error e => pure (.error (.io e)))

def exists? (p : Path) : Program Bool := do
  return (← ask (.kind p true)).isOk

def readText (p : Path) : Program (Except IoError String) := do
  match ← ask (.readFile p) with
  | .error e => pure (.error e)
  | .ok bs =>
    match Utf8.toString? bs with
    | some s => pure (.ok s)
    | none => pure (.error .notUtf8)

def writeText (p : Path) (text : String) : Call (Except IoError Unit) :=
  .writeFile p (Utf8.ofString text)

end Program

end LanguageHost
