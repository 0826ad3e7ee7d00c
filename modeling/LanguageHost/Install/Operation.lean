import LanguageHost.Machine.Program

/-!
An install in progress, as it is shown: its phase, how far it is, and the lines its commands print.
`Installing` is the monad of install steps; a step reports lines and may fail, and the lines it reported
before failing stay.
-/
namespace LanguageHost

inductive Phase where
  | resolving | preparing | installing | verifying | completed | failed | cancelled
deriving DecidableEq, Inhabited, Repr

namespace Phase

def isFinished : Phase → Bool
  | .completed | .failed | .cancelled => true
  | _ => false

def word : Phase → String
  | .resolving => "resolving"
  | .preparing => "initializing"
  | .installing => "installing"
  | .verifying => "verifying"
  | .completed => "completed"
  | .failed => "failed"
  | .cancelled => "cancelled"

end Phase

structure Operation where
  package : String
  phase : Phase
  /-- hundredths of the whole -/
  progress : Nat
  output : List String
  error : Option String
deriving DecidableEq, Repr

namespace Operation

def start (package : String) : Operation := ⟨package, .resolving, 0, [], none⟩

/-- A line of output. While the commands of the install run, each moves it on a little, to nine tenths at
most. -/
def addLine (o : Operation) (line : String) : Operation :=
  { o with
    output := o.output ++ [line]
    progress := if o.phase = .installing then min (o.progress + 1) 90 else o.progress }

def addLines (o : Operation) (lines : List String) : Operation := lines.foldl addLine o

/-- Enters a phase; the progress does not go back. -/
def enter (o : Operation) (phase : Phase) (progress : Nat) : Operation :=
  { o with phase := phase, progress := max o.progress progress }

def finish (o : Operation) : Except Error α → Operation
  | .ok _ => { o with phase := .completed, progress := 100 }
  | .error .cancelled => { o with phase := .cancelled }
  | .error e => { o with phase := .failed, error := some e.message }

/-- The progress as a fraction with three decimals. -/
def progressText (o : Operation) : String :=
  let cents := o.progress % 100
  toString (o.progress / 100) ++ "." ++ (if cents < 10 then "0" else "") ++ toString cents ++ "0"

end Operation

abbrev Installing (α : Type) := ExceptT Error (StateT Operation Program) α

namespace Installing

def lift (p : Program α) : Installing α :=
  ExceptT.mk (StateT.lift (do return .ok (← p)))

def fail (e : Error) : Installing α := ExceptT.mk (pure (.error e))

def ofExcept : Except Error α → Installing α
  | .ok a => pure a
  | .error e => fail e

def io (c : Call (Except IoError α)) : Installing α := do
  match ← lift (Program.ask c) with
  | .ok a => pure a
  | .error e => fail (.io e)

def update (f : Operation → Operation) : Installing Unit :=
  ExceptT.mk (do modify f; pure (.ok ()))

def tell (line : String) : Installing Unit := do
  lift (Program.ask (.tell line))
  update (·.addLine line)

def command (c : Command) : Installing Unit := do
  let report ← lift (Program.ask (.run c .reported))
  update (·.addLines report.lines)
  ofExcept report.outcome

end Installing

/-- How many lines of a captured output are kept. -/
def captureLimit : Nat := 10000

def capture (c : Command) (mode : RunMode) : Program (Except Error String) := do
  let report ← Program.ask (.run c mode)
  match report.outcome with
  | .ok () => pure (.ok (String.intercalate "\n" (report.lines.take captureLimit)))
  | .error e => pure (.error e)

def Installing.exists? (p : Path) : Installing Bool := lift (Program.exists? p)

/-- Removes whatever stands at a path; nothing there is no failure. -/
def removePath (p : Path) : Program (Except IoError Unit) := do
  let gone (r : Except IoError Unit) : Except IoError Unit :=
    match r with
    | .error .notFound => .ok ()
    | r => r
  match ← Program.ask (.kind p false) with
  | .ok .directory => return gone (← Program.ask (.removeTree p))
  | .ok _ => return gone (← Program.ask (.removeFile p))
  | .error .notFound => pure (.ok ())
  | .error e => pure (.error e)

def Installing.remove (p : Path) : Installing Unit := do
  match ← lift (removePath p) with
  | .ok () => pure ()
  | .error e => fail (.io e)

end LanguageHost
