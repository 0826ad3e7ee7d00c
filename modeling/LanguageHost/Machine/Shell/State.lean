import LanguageHost.Machine.Process

/-!
What a shell knows while it runs: variables, files, its input, and what it has done so far.
-/
namespace LanguageHost.Shell

/-- Where a stream goes. -/
inductive Sink where
  | out
  | err
  | nowhere
  | file (p : Path)
  /-- to whoever reads what a command prints -/
  | pipe

/-- Where a command prints, and whether its failure is only asked about, as in a condition. -/
structure Wiring where
  out : Sink
  err : Sink
  asked : Bool := false

structure State where
  vars : Table String
  files : Files
  cwd : Path
  /-- what is still to be read -/
  input : Octets
  /-- what has gone into the pipe -/
  piped : Octets
  /-- what has been done, the last first -/
  acts : List Act
  status : Nat
  /-- the signals that do nothing -/
  ignored : List Nat
  /-- a failure that nobody asks about ends the shell -/
  strict : Bool
  ended : Option Ending

namespace State

def write (s : State) (p : Path) (content : Octets) : State :=
  match s.files.write p content with
  | .ok files => { s with files := files, acts := .write p content :: s.acts }
  | .error _ => s

def emit (s : State) (sink : Sink) (bs : Octets) : State :=
  match bs, sink with
  | [], _ | _, .nowhere => s
  | bs, .out => { s with acts := .out bs :: s.acts }
  | bs, .err => { s with acts := .err bs :: s.acts }
  | bs, .pipe => { s with piped := s.piped ++ bs }
  | bs, .file p => s.write p ((s.files.read p).toOption.getD [] ++ bs)

def say (s : State) (sink : Sink) (text : String) : State := s.emit sink (Utf8.ofString text)

def finish (s : State) (status : Nat) : State := { s with status := status }

/-- What a command leaves behind once its failure has been looked at. -/
def heed (s : State) (w : Wiring) : State :=
  if s.strict ∧ !w.asked ∧ s.status ≠ 0 ∧ s.ended.isNone then { s with ended := some (.exit s.status) }
  else s

/-- A subshell ends alone, unless a signal ends the whole shell. -/
def leave (outer inner : State) : State :=
  let s := { outer with files := inner.files, acts := inner.acts, status := inner.status }
  match inner.ended with
  | some (.exit code) => { s with status := code }
  | other => { s with ended := other }

def performance (s : State) : Performance := ⟨s.acts.reverse, s.ended.getD (.exit s.status)⟩

end State

end LanguageHost.Shell
