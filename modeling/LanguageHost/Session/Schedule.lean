import LanguageHost.Session.Fleet

/-!
Runs of a fleet. A task is a call that takes many steps; jobs are tasks, or acts done at once, that start
together. The schedule here takes every job as far as it gets, lets the links come to rest, and lets
time pass only when nothing else can move.
-/
namespace LanguageHost

inductive Task where
  /-- a call on the client of a link -/
  | call (link : Nat) (c : ClientCall)
  | start (r : StartRequest) (s : Fleet.StartStage)
  | stop (language : String) (s : Fleet.QuitStage)
  | stopAll (s : Fleet.QuitAllStage)

namespace Task

def ask (link : Nat) (q : Query) (s : AskStage) : Task := .call link (.ask q s)

def lookUp (link : Nat) (q : CachedQuery) (s : LookStage) : Task := .call link (.lookUp q s)

def greet (link : Nat) (s : GreetStage) : Task := .call link (.greet s)

def shutDown (link : Nat) (s : EndStage) : Task := .call link (.shutDown s)

/-- The outcome of a call on a link that is not there. -/
def lost : Outcome := .answered (.error (.crashed ""))

/-- One step of a task; its ticket tells it from other tasks. -/
def step (ticket : Nat) (f : Fleet) : Task → Fleet × Turn Task Outcome
  | .call i c => f.onLink i (fun l =>
      let (l, turn) := c.step f.now l
      (l, turn.lift (.call i) id)) (.done lost)
  | .start r s =>
    let (f, t) := f.start ticket r s
    (f, t.lift (.start r) .started)
  | .stop language s =>
    let (f, t) := f.stop ticket language s
    (f, t.lift (.stop language) .ended)
  | .stopAll s =>
    let (f, t) := f.stopAll ticket s
    (f, t.lift .stopAll .allEnded)

/-- Whether a query is about to register, which takes a lock. -/
def isAtLock : Task → Bool
  | .call _ (.ask _ (.numbered _)) | .call _ (.lookUp _ (.asking (.numbered _))) => true
  | _ => false

/-- More steps than a task can take. -/
def length (f : Fleet) : Task → Nat
  | .stopAll _ => 16 * (f.slots.length + 1)
  | _ => 40

end Task

/-- Something to do, and what is made of its outcome. -/
inductive Job (α : Type) where
  | act (run : Fleet → α × Fleet)
  | task (t : Task) (finish : Fleet → Outcome → α)

namespace Job

/-- How far a job has come. -/
inductive State (α : Type) where
  | todo (job : Job α)
  | waiting (t : Task) (finish : Fleet → Outcome → α) (deadline : Option Nat)
  | finished (a : α)

/-- A job after a turn: where the fleet and the job stand, and whether anything was done. -/
structure Progress (α : Type) where
  fleet : Fleet
  state : State α
  moved : Bool

/-- Takes a task as far as it gets, or until it has to stop. -/
def push (stop : Task → Bool) (fuel ticket : Nat) (f : Fleet) (t : Task) (finish : Fleet → Outcome → α)
    (moved : Bool) : Progress α :=
  match fuel with
  | 0 => ⟨f, .waiting t finish none, moved⟩
  | fuel + 1 =>
    match t.step ticket f with
    | (f, .done r) => ⟨f, .finished (finish f r), true⟩
    | (f, .wait d) => ⟨f, .waiting t finish d, moved⟩
    | (f, .go t) => if stop t then ⟨f, .waiting t finish none, true⟩ else push stop fuel ticket f t finish true

def advance (ticket : Nat) (f : Fleet) : State α → Progress α
  | .todo (.act run) =>
    let (a, f) := run f
    ⟨f, .finished a, true⟩
  | .todo (.task t finish) | .waiting t finish _ => push (fun _ => false) (t.length f) ticket f t finish false
  | .finished a => ⟨f, .finished a, false⟩

/-- A job that starts when no more locks can be taken comes as far as its first. -/
def tarry (ticket : Nat) (f : Fleet) : State α → Progress α
  | .todo (.act run) => ⟨f, .todo (.act run), true⟩
  | .todo (.task t finish) => push Task.isAtLock (t.length f) ticket f t finish false
  | s => advance ticket f s

def State.isTodo : State α → Bool
  | .todo _ => true
  | _ => false

def State.deadline? : State α → Option Nat
  | .waiting _ _ d => d
  | _ => none

def State.result? : State α → Option α
  | .finished a => some a
  | _ => none

end Job

namespace Fleet

/-- A fleet without servers. -/
def ofConfig (config : String → Option LaunchConfig) (timeout : Nat) (launcher : Launcher) : Fleet :=
  ⟨0, [], [], [], config, timeout, launcher⟩

/-- Lets links come to rest, one after the other. -/
def settleLinks : List Link → List Link × List LanguageEvent
  | [] => ([], [])
  | l :: rest =>
    let (l, reports) := l.quiet
    let (rest, events) := settleLinks rest
    (l :: rest, reports.map (fun r => ⟨l.client.language, r⟩) ++ events)

/-- Lets every link come to rest. -/
def settle (f : Fleet) : Fleet :=
  let (links, events) := settleLinks f.links
  { f with links := links, events := f.events ++ events }

/-- All jobs after a turn of each, and whether anything was done. -/
structure Round (α : Type) where
  fleet : Fleet
  states : List (Job.State α)
  moved : Bool

/-- How many locks can be taken in one round. Each job that starts takes one. -/
def stamina : Nat := 128

/-- Takes every job as far as it gets, in order, as long as locks can be taken. The place of a job is its
ticket. -/
def round (ticket left : Nat) (f : Fleet) : List (Job.State α) → Round α
  | [] => ⟨f, [], false⟩
  | s :: rest =>
    let p := if left = 0 then Job.tarry ticket f s else Job.advance ticket f s
    let r := round (ticket + 1) (if s.isTodo then left - 1 else left) p.fleet rest
    ⟨r.fleet, p.state :: r.states, p.moved || r.moved⟩

/-- The time until which somebody waits, the earliest of all. -/
def earliest (states : List (Job.State α)) : Option Nat :=
  (states.filterMap Job.State.deadline?).min?

/-- Rounds until no job can move any more. When none can move now, time passes. -/
def rounds (fuel : Nat) (f : Fleet) (states : List (Job.State α)) : Fleet × List (Job.State α) :=
  match fuel with
  | 0 => (f, states)
  | fuel + 1 =>
    let r := round 0 stamina f states
    let f := r.fleet.settle
    if r.moved then rounds fuel f r.states
    else match earliest r.states with
      | none => (f, r.states)
      | some time => rounds fuel { f with now := max f.now time } r.states

/-- Runs jobs that start together. A job that never ends has no result. -/
def run (f : Fleet) (jobs : List (Job α)) : List (Option α) × Fleet :=
  let fuel := 100 * (jobs.length + 1) * (f.slots.length + jobs.length + 1)
  let (f, states) := f.rounds fuel (jobs.map .todo)
  (states.map Job.State.result?, f)

def runOne (f : Fleet) (job : Job α) : Option α × Fleet :=
  let (results, f) := f.run [job]
  (results.head?.join, f)

end Fleet

end LanguageHost
