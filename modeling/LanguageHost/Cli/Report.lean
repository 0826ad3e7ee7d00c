import LanguageHost.Error
import LanguageHost.Machine.Program

/-!
What a command prints, and how it ends. A command is a program that may print and may fail; what it
printed before failing stays.
-/
namespace LanguageHost.Cli

/-- A failure as it is told: what went wrong, and what that came from. -/
structure Failure where
  message : String
  causes : List String
deriving DecidableEq, Inhabited, Repr

namespace Failure

def ofText (message : String) : Failure := ⟨message, []⟩

/-- What an error comes from, when it stands for an error of something else. -/
def causesOf : Error → List String
  | .io cause => [cause.message]
  | .json text | .toml text => [text]
  | _ => []

def ofError (e : Error) : Failure := ⟨e.message, causesOf e⟩

def ofIo (e : IoError) : Failure := ofText e.message

/-- The same failure as a part of a larger undertaking. -/
def within (f : Failure) (undertaking : String) : Failure := ⟨undertaking, f.message :: f.causes⟩

/-- Causes with their numbers, right-aligned. -/
def numbered (i : Nat) : List String → List String
  | [] => []
  | c :: rest =>
    let n := toString i
    (String.ofList (List.replicate (5 - n.length) ' ') ++ n ++ ": " ++ c) :: numbered (i + 1) rest

/-- The lines that tell the failure; a lone cause needs no number. -/
def lines (f : Failure) : List String :=
  ("Error: " ++ f.message) :: (match f.causes with
    | [] => []
    | [cause] => ["", "Caused by:", "    " ++ cause]
    | causes => ["", "Caused by:"] ++ numbered 0 causes)

end Failure

/-- What has been printed so far. -/
structure Printed where
  out : List String
  err : List String
deriving DecidableEq, Repr

/-- What is left of a command that has ended. -/
structure Report where
  printed : Printed
  status : Nat
deriving DecidableEq, Repr

abbrev Running (α : Type) := ExceptT Failure (StateT Printed Program) α

namespace Running

def fail (f : Failure) : Running α := ExceptT.mk (pure (.error f))

def lift (p : Program α) : Running α := ExceptT.mk (StateT.lift (do return .ok (← p)))

def ofExcept (tell : ε → Failure) : Except ε α → Running α
  | .ok a => pure a
  | .error e => fail (tell e)

def print (line : String) : Running Unit :=
  ExceptT.mk (do modify fun p => { p with out := p.out ++ [line] }; pure (.ok ()))

def printAll (lines : List String) : Running Unit :=
  ExceptT.mk (do modify fun p => { p with out := p.out ++ lines }; pure (.ok ()))

def warn (line : String) : Running Unit :=
  ExceptT.mk (do modify fun p => { p with err := p.err ++ [line] }; pure (.ok ()))

/-- A command from start to end. -/
def report (r : Running Unit) : Program Report := do
  let (result, printed) ← r.run.run ⟨[], []⟩
  match result with
  | .ok () => pure ⟨printed, 0⟩
  | .error f => pure ⟨{ printed with err := printed.err ++ f.lines }, 1⟩

end Running

end LanguageHost.Cli
