import LanguageHost.Machine.Program

/-!
A machine as a value: its files, environment, programs and network, and what has been seen of its use.
`Host.answer` answers one call, `Program.run` a whole program. Every act of a running command is a
moment at which it can be cancelled.
-/
namespace LanguageHost

/-- What makes somebody cancel. -/
inductive Trigger where
  | never
  /-- so many lines have been reported -/
  | afterLines (count : Nat)
deriving DecidableEq, Repr

structure Host where
  files : Files
  cwd : Path
  env : Table String
  /-- the home of the account, where the environment names none -/
  accountHome : Option Path
  programs : Programs
  /-- the answer to a request for a URL by a named agent -/
  network : String → String → Option Reply
  clock : String
  trigger : Trigger
  isCancelled : Bool
  /-- the file operations that fail whatever the files, by their number -/
  faults : Nat → Option IoError
  /-- how many file operations there were -/
  operations : Nat
  /-- the processes started -/
  started : List Invocation
  /-- the lines reported -/
  told : List String

namespace Host

/-- A path as the machine sees it. -/
def absolute (h : Host) (p : Path) : Path := if p.text = "" then p else h.cwd / p.text

/-- Whether the trigger has been reached when `count` lines are reported. -/
def reached (h : Host) (count : Nat) : Bool :=
  match h.trigger with
  | .never => false
  | .afterLines n => n ≤ count

/-- Cancels if the trigger has been reached. -/
def settle (h : Host) (extra : Nat) : Host :=
  { h with isCancelled := h.isCancelled || h.reached (h.told.length + extra) }

/-- A file operation that changes nothing. -/
def look (h : Host) (f : Files → Except IoError α) : Except IoError α × Host :=
  let next := { h with operations := h.operations + 1 }
  match h.faults h.operations with
  | some e => (.error e, next)
  | none => (f h.files, next)

/-- A file operation that changes the files unless it fails. -/
def change (h : Host) (f : Files → Except IoError Files) : Except IoError Unit × Host :=
  let next := { h with operations := h.operations + 1 }
  match h.faults h.operations with
  | some e => (.error e, next)
  | none =>
    match f h.files with
    | .ok files => (.ok (), { next with files := files })
    | .error e => (.error e, next)

/-- The directories in which programs are looked for. -/
def searchPath (env : Table String) : List String :=
  match env.get? "PATH" with
  | some path => Text.split ':' path
  | none => []

/-- Whether the file at a path can be started. -/
def startable (h : Host) (p : Path) : Except IoError Unit := do
  match ← h.files.find p with
  | .file _ true => .ok ()
  | _ => .error .permission

/-- The file that runs for a program name. One without a slash is looked for along the search path,
where files that may not run are passed over. -/
def programFile (h : Host) (cwd : Path) (env : Table String) (name : String) : Except IoError Path :=
  if name = "" then .error .notFound
  else if '/' ∈ name.toList then do
    h.startable (cwd / name)
    .ok (cwd / name)
  else
    let candidates := (searchPath env).map fun dir => (if dir = "" then cwd else cwd / dir) / name
    match candidates.find? fun p => (h.startable p).isOk with
    | some p => .ok p
    | none =>
      if candidates.any fun p => h.files.exists? p then .error .permission else .error .notFound

/-- The absolute path without links to what stands at a path. -/
def canonical (files : Files) (p : Path) : Except IoError Path := do
  let names ← files.locate true p
  match files.get? names with
  | some _ => .ok (.ofComponents (.root :: names.map .name))
  | none => .error .notFound

/-- What a command starts, or why it cannot. -/
def invocation (h : Host) (c : Command) : Except IoError Invocation := do
  if c.hasZero then .error .zeroInCommand
  let cwd ← canonical h.files (match c.cwd with
    | some dir => h.absolute dir
    | none => h.cwd)
  if !h.files.isDirectoryAt cwd then .error .notDirectory
  else
    let env := h.env.insertAll c.env
    let file ← canonical h.files (← h.programFile cwd env c.program)
    pure ⟨file, c.program :: c.args, cwd, env⟩

/-- Removes what stands at a path, of any kind. -/
def removeAny (files : Files) (p : Path) : Files :=
  match files.removeFile p with
  | .ok files => files
  | .error _ =>
    match files.removeTree p with
    | .ok files => files
    | .error _ => files

def orSame (files : Files) (r : Except IoError Files) : Files :=
  match r with
  | .ok files => files
  | .error _ => files

/-- A process does not stop for an operation that fails. -/
def touch (files : Files) (cwd : Path) : Act → Files
  | .makeDirs p => orSame files (files.makeDirs (cwd / p.text))
  | .remove p => removeAny files (cwd / p.text)
  | .write p content =>
    let place := cwd / p.text
    let files := match place.parent? with
      | some dir => orSame files (files.makeDirs dir)
      | none => files
    orSame files (files.write place content)
  | .link p target =>
    let place := cwd / p.text
    let files := match place.parent? with
      | some dir => orSame files (files.makeDirs dir)
      | none => files
    orSame files (files.makeLink place target)
  | .out _ | .err _ => files

/-- A command between two of its acts. -/
structure Running where
  out : Channel
  err : Channel
  lines : List String

/-- One act: it changes files, or its output makes lines. -/
def act (h : Host) (cwd : Path) (r : Running) : Act → Host × Running
  | .out bs =>
    let (lines, channel) := r.out.push bs
    (h, { r with out := channel, lines := r.lines ++ lines })
  | .err bs =>
    let (lines, channel) := r.err.push bs
    (h, { r with err := channel, lines := r.lines ++ lines })
  | a => ({ h with files := touch h.files cwd a }, r)

/-- The lines that count as reported while a command runs. -/
def reported (mode : RunMode) (r : Running) : Nat :=
  match mode with
  | .reported => r.lines.length
  | _ => 0

/-- The remaining acts of a command; the answer says whether it was stopped before their end. -/
def play (h : Host) (mode : RunMode) (cwd : Path) (r : Running) : List Act → Bool × Host × Running
  | [] => (false, h, r)
  | a :: rest =>
    let (h, r) := h.act cwd r a
    let h := h.settle (reported mode r)
    if h.isCancelled ∧ mode ≠ .steady then (true, h, r) else play h mode cwd r rest

/-- Enters the lines that a command has reported. -/
def enterLines (h : Host) (mode : RunMode) (lines : List String) : Host :=
  match mode with
  | .reported => { h with told := h.told ++ lines }.settle 0
  | _ => h

def execute (h : Host) (c : Command) (mode : RunMode) : RunReport × Host :=
  if h.isCancelled ∧ mode ≠ .steady then (⟨[], .error .cancelled⟩, h)
  else match h.invocation c with
    | .error e => (⟨[], .error (.commandFailed c.display ("failed to start: " ++ e.message))⟩, h)
    | .ok inv =>
      let p := h.programs inv h.files
      let h := { h with started := h.started ++ [inv] }
      let (stopped, h, r) := h.play mode inv.cwd ⟨.empty, .empty, []⟩ p.acts
      if stopped then (⟨r.lines, .error .cancelled⟩, h.enterLines mode r.lines)
      else match p.ending with
        | .hang =>
          (⟨r.lines, .error .cancelled⟩, { h.enterLines mode r.lines with isCancelled := true })
        | ending =>
          let lines := r.lines ++ r.out.close ++ r.err.close
          let outcome := if ending = .exit 0 then .ok ()
            else .error (.commandFailed c.display ending.status)
          (⟨lines, outcome⟩, h.enterLines mode lines)

def kindOf : Files → FileKind
  | .file _ _ => .file
  | .dir _ => .directory
  | .link _ => .link

/-- What stands at a path, a link at its end followed or not. -/
def kind (files : Files) (p : Path) (follow : Bool) : Except IoError FileKind := do
  match files.get? (← files.locate follow p) with
  | some entry => .ok (kindOf entry)
  | none => .error .notFound

def answer (h : Host) : Call β → β × Host
  | .readFile p => h.look fun t => t.read (h.absolute p)
  | .writeFile p content => h.change fun t => t.write (h.absolute p) content
  | .makeDirs p => h.change fun t => if p.text = "" then .ok t else t.makeDirs (h.absolute p)
  | .rename p q => h.change fun t => t.rename (h.absolute p) (h.absolute q)
  | .removeTree p => h.change fun t => t.removeTree (h.absolute p)
  | .removeFile p => h.change fun t => t.removeFile (h.absolute p)
  | .allowRun p => h.change fun t => t.allowRun (h.absolute p)
  | .list p => h.look fun t => t.list (h.absolute p)
  | .kind p follow => (kind h.files (h.absolute p) follow, h)
  | .canonical p => (canonical h.files (h.absolute p), h)
  | .envVar name => (h.env.get? name, h)
  | .accountHome => (h.accountHome, h)
  | .workingDir => (h.cwd, h)
  | .findProgram name => ((h.programFile h.cwd h.env name).toOption, h)
  | .run c mode => h.execute c mode
  | .tell line => ((), { h with told := h.told ++ [line] }.settle 0)
  | .cancelled => (h.isCancelled, h)
  | .awaitCancel => ((), { h with isCancelled := true })
  | .fetch url agent => (h.network url agent, h)
  | .now => (h.clock, h)

end Host

def Program.run (h : Host) : Program α → α × Host
  | .done a => (a, h)
  | .call c next =>
    let (b, h) := h.answer c
    (next b).run h

end LanguageHost
