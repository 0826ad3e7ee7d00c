import LanguageHost.Machine.Files

/-!
Processes: the command that starts one, what it does while it runs, and the lines that its output makes.
A process is taken for the list of its acts, so that a run can be stopped between any two of them.
-/
namespace LanguageHost

structure Command where
  program : String
  args : List String
  /-- the directory to run in, when it is not the host's own -/
  cwd : Option Path
  /-- what is added to the environment, in order -/
  env : List (String × String)
deriving DecidableEq, Repr

namespace Command

def ofArgs (program : String) (args : List String) : Command := ⟨program, args, none, []⟩

def shell (line : String) : Command := ofArgs "sh" ["-c", line]

def within (c : Command) (dir : Path) : Command := { c with cwd := some dir }

def addEnv (c : Command) (key value : String) : Command := { c with env := c.env ++ [(key, value)] }

def display (c : Command) : String := String.intercalate " " (c.program :: c.args)

/-- Everything that a process is given has to do without the zero character. -/
def hasZero (c : Command) : Bool :=
  let texts := c.program :: c.args ++ (c.cwd.map Path.text).toList ++ c.env.flatMap fun (k, v) => [k, v]
  texts.any fun text => text.toList.contains '\x00'

end Command

/-- What a started program is given. -/
structure Invocation where
  /-- the file that runs, at the end of all links -/
  file : Path
  /-- the name it is called by, then its arguments -/
  argv : List String
  cwd : Path
  env : Table String
deriving DecidableEq, Repr

inductive Act where
  | makeDirs (p : Path)
  | remove (p : Path)
  | write (p : Path) (content : Octets)
  | link (p target : Path)
  | out (text : Octets)
  | err (text : Octets)

inductive Ending where
  | exit (code : Nat)
  | signal (number : Nat)
  /-- it never ends on its own -/
  | hang
deriving DecidableEq, Repr

structure Performance where
  acts : List Act
  ending : Ending

/-- What every program on the machine does when it is started. -/
abbrev Programs := Invocation → Files → Performance

/-- The name of a signal, empty for one that has none of its own. -/
def signalName (number : Nat) : String :=
  match number with
  | 1 => "SIGHUP"
  | 2 => "SIGINT"
  | 3 => "SIGQUIT"
  | 4 => "SIGILL"
  | 5 => "SIGTRAP"
  | 6 => "SIGABRT"
  | 7 => "SIGBUS"
  | 8 => "SIGFPE"
  | 9 => "SIGKILL"
  | 10 => "SIGUSR1"
  | 11 => "SIGSEGV"
  | 12 => "SIGUSR2"
  | 13 => "SIGPIPE"
  | 14 => "SIGALRM"
  | 15 => "SIGTERM"
  | 16 => "SIGSTKFLT"
  | 17 => "SIGCHLD"
  | 18 => "SIGCONT"
  | 19 => "SIGSTOP"
  | 20 => "SIGTSTP"
  | 21 => "SIGTTIN"
  | 22 => "SIGTTOU"
  | 23 => "SIGURG"
  | 24 => "SIGXCPU"
  | 25 => "SIGXFSZ"
  | 26 => "SIGVTALRM"
  | 27 => "SIGPROF"
  | 28 => "SIGWINCH"
  | 29 => "SIGIO"
  | 30 => "SIGPWR"
  | 31 => "SIGSYS"
  | _ => ""

/-- An exit status as it is shown. -/
def Ending.status : Ending → String
  | .exit code => "exit status: " ++ toString code
  | .signal n =>
    if signalName n = "" then "signal: " ++ toString n
    else "signal: " ++ toString n ++ " (" ++ signalName n ++ ")"
  | .hang => "running"

/-- One stream of output on its way into lines. -/
structure Channel where
  /-- what has come after the last newline -/
  pending : Octets
  /-- a stream that has sent something other than text is not read any further -/
  isOpen : Bool

namespace Channel

def empty : Channel := ⟨[], true⟩

/-- The octets before and after the first newline. -/
def cutLine? : Octets → Option (Octets × Octets)
  | [] => none
  | b :: bs => if b = 10 then some ([], bs) else (cutLine? bs).map fun (x, y) => (b :: x, y)

theorem cutLine?_shorter {bs x y : Octets} (h : cutLine? bs = some (x, y)) :
    y.length < bs.length := by
  induction bs generalizing x with
  | nil => simp [cutLine?] at h
  | cons b bs ih =>
    simp only [cutLine?] at h
    split at h
    · simp at h; simp [← h.2]
    · simp only [Option.map_eq_some_iff] at h
      obtain ⟨⟨u, v⟩, huv, he⟩ := h
      simp only [Prod.mk.injEq] at he
      have := ih (he.2 ▸ huv)
      simp; omega

/-- A line ended by a newline, less the carriage return in front of it. -/
def lineOf? (bs : Octets) : Option String :=
  (Utf8.decode bs).map fun cs => String.ofList (Text.dropReturn cs)

/-- The complete lines at the front, and the channel that is left. -/
def drain (bs : Octets) : List String × Channel :=
  match h : cutLine? bs with
  | none => ([], ⟨bs, true⟩)
  | some (front, rest) =>
    match lineOf? front with
    | none => ([], ⟨[], false⟩)
    | some line =>
      have : rest.length < bs.length := cutLine?_shorter h
      let (lines, channel) := drain rest
      (line :: lines, channel)
termination_by bs.length

/-- Takes in more output; the answer is the lines it completes. -/
def push (c : Channel) (bs : Octets) : List String × Channel :=
  if c.isOpen then drain (c.pending ++ bs) else ([], c)

/-- The end of the stream: what is left is a line, as it stands. -/
def close (c : Channel) : List String :=
  if c.isOpen ∧ !c.pending.isEmpty then (Utf8.toString? c.pending).toList else []

end Channel

end LanguageHost
