import LanguageHost.Proofs.Install.Parts
import Mathlib.Logic.Function.Basic

/-!
One installer and the calls on it, which take their steps in any order. A call that finds the place free
has it until it ends. The lines that its commands report pass through a channel to the operation that is
shown; they are taken from there while the work goes on, and those that are left when it ends are taken
before anything follows.
-/
namespace LanguageHost

namespace Program

/-- The call that a program begins with, and the machine that is to answer it. -/
def occasion? (h : Host) : Program α → Option Occasion
  | .done _ => none
  | .call c _ => some ⟨h, c⟩

/-- What is left of a program when its first call has been answered. -/
def resume (h : Host) : Program α → Program α
  | .done a => .done a
  | .call c next => next (h.answer c).1

variable {h : Host} {m : Occasion} {p : Program α}

theorem Logged.answered {log : List Occasion} {t' : Files} {f : α → Program β} {b : β}
    (asks : p.occasion? h = some m) (run : Logged log m.after.files (p.resume h >>= f) b t') :
    Logged (m :: log) h.files (p >>= f) b t' := by
  cases p with
  | done a => cases asks
  | call c next =>
      cases asks
      exact .call rfl run

theorem Mute.resume (mute : p.Mute) : (p.resume h).Mute := by
  cases p with
  | done a => exact mute
  | call c next => exact mute.2 _

theorem Mute.lines (mute : p.Mute) (asks : p.occasion? h = some m) : m.lines = [] := by
  cases p with
  | done a => cases asks
  | call c next =>
      cases asks
      exact Occasion.lines_of_mute mute.1

end Program

namespace Install

/-- How far a call is that has the place. It carries the operation as its own steps have made it, beside
the one that is shown. -/
inductive Stage where
  /-- nothing of the install is shown yet -/
  | placed
  /-- an earlier install is being set aside -/
  | clearing (p : Plan) (rest : Program (Except Error Bool × Operation))
  | working (p : Plan) (had : Bool) (part : Part) (rest : Program (Except Error part.Gives × Operation))
  /-- the work has ended, and lines of it may still be in the channel -/
  | draining (p : Plan) (had : Bool) (r : Except Error ServerBinary) (o : Operation)
  | settling (rest : Program (Except Error (ServerBinary × ServerConfigs) × Operation))
  /-- the install has ended, which is not shown yet -/
  | closing (r : Except Error (ServerBinary × ServerConfigs)) (o : Operation)
  /-- its end is shown -/
  | leaving (r : Except Error (ServerBinary × ServerConfigs)) (o : Operation)

namespace Stage

def occasion? (h : Host) : Stage → Option Occasion
  | .clearing _ rest => rest.occasion? h
  | .working _ _ _ rest => rest.occasion? h
  | .settling rest => rest.occasion? h
  | _ => none

def resume (h : Host) : Stage → Stage
  | .clearing p rest => .clearing p (rest.resume h)
  | .working p had part rest => .working p had part (rest.resume h)
  | .settling rest => .settling (rest.resume h)
  | st => st

/-- The lines of the channel are taken. -/
def listens : Stage → Bool
  | .working .. | .draining .. => true
  | _ => false

def start (e : RegistryEntry) (platform : Platform) (p : Plan) (had : Bool) (part : Part)
    (o : Operation) : Stage :=
  .working p had part ((part.work p e platform).run.run (part.enter o))

end Stage

end Install

namespace Installer

/-- Changes the operation that is shown. -/
def revise (i : Installer) (f : Operation → Operation) : Installer :=
  { i with operation := i.operation.map f }

/-- The servers that an install has registered. -/
def registered (i : Installer) : Except Error (ServerBinary × ServerConfigs) → Installer
  | .ok (_, configs) => { i with configs := configs }
  | .error _ => i

end Installer

namespace Install

/-- What comes next at a stage where no call to the machine does; `drained` says that the channel is
empty. -/
def Stage.turn (i : Installer) (e : RegistryEntry) (drained : Bool) : Stage → Option (Stage × Installer)
  | .placed =>
    let shown := Operation.start e.name
    match plan i.servers e i.platform with
    | .error error => some (.closing (.error error) shown, { i with operation := some shown })
    | .ok p =>
      let rest := (setAside (place i.servers e) (asidePlace i.servers e)).run.run shown
      some (.clearing p rest, { i with operation := some shown })
  | .clearing _ (.done (.error error, o)) => some (.closing (.error error) o, i)
  | .clearing p (.done (.ok had, o)) =>
    some (.start e i.platform p had .preparing o, i.revise Part.preparing.enter)
  | .working p had _ (.done (.error error, o)) => some (.draining p had (.error error) o, i)
  | .working p had .preparing (.done (.ok _, o)) =>
    some (.start e i.platform p had .installing o, i.revise Part.installing.enter)
  | .working p had .installing (.done (.ok _, o)) =>
    some (.start e i.platform p had .verifying o, i.revise Part.verifying.enter)
  | .working p had .verifying (.done (.ok binary, o)) => some (.draining p had (.ok binary) o, i)
  | .draining p had r o =>
    if drained then some (.settling ((settle i.servers i.configs e p had r).run.run o), i) else none
  | .settling (.done (r, o)) => some (.closing r o, i.registered r)
  | .closing r o => some (.leaving r o, i.revise (·.finish r))
  | _ => none

/-- The turns of a stage, one by one. -/
inductive Stage.Turns (i : Installer) (e : RegistryEntry) (drained : Bool) :
    Stage → Stage × Installer → Prop
  | refuse {error : Error} (planned : plan i.servers e i.platform = .error error) :
    Turns i e drained .placed
      (.closing (.error error) (.start e.name), { i with operation := some (.start e.name) })
  | clear {p : Plan} (planned : plan i.servers e i.platform = .ok p) :
    Turns i e drained .placed
      (.clearing p ((setAside (place i.servers e) (asidePlace i.servers e)).run.run (.start e.name)),
        { i with operation := some (.start e.name) })
  | stuck {p : Plan} {error : Error} {o : Operation} :
    Turns i e drained (.clearing p (.done (.error error, o))) (.closing (.error error) o, i)
  | prepare {p : Plan} {had : Bool} {o : Operation} :
    Turns i e drained (.clearing p (.done (.ok had, o)))
      (.start e i.platform p had .preparing o, i.revise Part.preparing.enter)
  | fail {p : Plan} {had : Bool} {part : Part} {error : Error} {o : Operation} :
    Turns i e drained (.working p had part (.done (.error error, o))) (.draining p had (.error error) o, i)
  | install {p : Plan} {had : Bool} {u : Part.preparing.Gives} {o : Operation} :
    Turns i e drained (.working p had .preparing (.done (.ok u, o)))
      (.start e i.platform p had .installing o, i.revise Part.installing.enter)
  | verify {p : Plan} {had : Bool} {u : Part.installing.Gives} {o : Operation} :
    Turns i e drained (.working p had .installing (.done (.ok u, o)))
      (.start e i.platform p had .verifying o, i.revise Part.verifying.enter)
  | finish {p : Plan} {had : Bool} {binary : Part.verifying.Gives} {o : Operation} :
    Turns i e drained (.working p had .verifying (.done (.ok binary, o)))
      (.draining p had (.ok binary) o, i)
  | settle {p : Plan} {had : Bool} {r : Except Error ServerBinary} {o : Operation}
      (empty : drained = true) :
    Turns i e drained (.draining p had r o)
      (.settling ((Install.settle i.servers i.configs e p had r).run.run o), i)
  | close {r : Except Error (ServerBinary × ServerConfigs)} {o : Operation} :
    Turns i e drained (.settling (.done (r, o))) (.closing r o, i.registered r)
  | leave {r : Except Error (ServerBinary × ServerConfigs)} {o : Operation} :
    Turns i e drained (.closing r o) (.leaving r o, i.revise (·.finish r))

theorem Stage.turn_cases {i : Installer} {e : RegistryEntry} {drained : Bool} {st : Stage}
    {next : Stage × Installer} (turns : st.turn i e drained = some next) : st.Turns i e drained next := by
  cases st with
  | placed =>
      simp only [turn] at turns
      split at turns
      · next error planned =>
          cases turns
          exact .refuse planned
      · next p planned =>
          cases turns
          exact .clear planned
  | clearing p rest =>
      obtain ⟨_ | _, o⟩ | _ := rest
      · cases turns
        exact .stuck
      · cases turns
        exact .prepare
      · cases turns
  | working p had part rest =>
      obtain ⟨_ | _, o⟩ | _ := rest
      · cases turns
        exact .fail
      · cases part with
        | preparing =>
            cases turns
            exact .install
        | installing =>
            cases turns
            exact .verify
        | verifying =>
            cases turns
            exact .finish
      · cases turns
  | draining p had r o =>
      simp only [turn] at turns
      split at turns
      · next empty =>
          cases turns
          exact .settle empty
      · cases turns
  | settling rest =>
      obtain ⟨r, o⟩ | _ := rest
      · cases turns
        exact .close
      · cases turns
  | closing r o =>
      cases turns
      exact .leave
  | leaving r o => cases turns

/-- A call that has the place. -/
structure Visit where
  entry : RegistryEntry
  /-- the installer and the files as the call has found them -/
  origin : Installer
  found : Files
  stage : Stage
  /-- the calls to the machine that have been answered -/
  log : List Occasion
  /-- the machine that answers the next call -/
  asked : Option Host
  /-- the lines of that call that wait for room in the channel -/
  unsent : List String
  channel : List String

def Visit.start (e : RegistryEntry) (i : Installer) (t : Files) : Visit :=
  ⟨e, i, t, .placed, [], none, [], []⟩

/-- The call to the machine that is being answered. -/
def Visit.occasion? (v : Visit) : Option Occasion := v.asked.bind fun h => v.stage.occasion? h

/-- How many lines the channel holds. -/
def outputBuffer : Nat := 64

end Install

open Install (Visit Stage outputBuffer)

/-- An installer with the calls on it. -/
structure Workshop where
  servers : Path
  configs : ServerConfigs
  platform : Platform
  operation : Option Operation
  /-- the call that has the place, by its ticket; a cancellation signals its token -/
  slot : Option Nat
  /-- the calls whose tokens have been signalled -/
  signalled : List Nat
  files : Files
  calls : Nat → Option Visit
  /-- what the calls that have ended have returned -/
  returned : Nat → Option (Except Error ServerBinary)
  /-- the ticket of the next call -/
  tickets : Nat

namespace Workshop

/-- An installer that nobody has called yet. -/
def opened (servers : Path) (configs : ServerConfigs) (platform : Platform) (files : Files) : Workshop :=
  ⟨servers, configs, platform, none, none, [], files, fun _ => none, fun _ => none, 0⟩

def installer (s : Workshop) : Installer := ⟨s.servers, s.configs, s.platform, s.slot.isSome, s.operation⟩

/-- What a call has done to the installer, but for the place. -/
def adopt (s : Workshop) (i : Installer) : Workshop :=
  { s with configs := i.configs, operation := i.operation }

def put (s : Workshop) (k : Nat) (v : Visit) : Workshop :=
  { s with calls := Function.update s.calls k (some v) }

/-- The call has its answer. -/
def answers (s : Workshop) (k : Nat) (r : Except Error ServerBinary) : Workshop :=
  { s with returned := Function.update s.returned k (some r) }

/-- A call to install an entry, up to its look at the place. -/
def begin (s : Workshop) (e : RegistryEntry) : Workshop :=
  let k := s.tickets
  let s' := { s with tickets := k + 1 }
  match s.installer.reserve e with
  | .error error => s'.answers k (.error error)
  | .ok _ => { s' with slot := some k }.put k (.start e s.installer s.files)

/-- Asks the running install to stop; the answer is whether there is one. -/
def cancel (s : Workshop) : Bool × Workshop :=
  (s.installer.cancel, { s with signalled := s.slot.toList ++ s.signalled })

/-- The place is free again, however the call has ended. -/
def release (s : Workshop) (k : Nat) : Workshop :=
  { s with slot := none, calls := Function.update s.calls k none }

inductive Move where
  | begin (e : RegistryEntry)
  /-- a call goes on where it needs no answer of the machine -/
  | turn (k : Nat)
  /-- a call asks the machine -/
  | ask (k : Nat) (h : Host)
  /-- a line of the answer goes into the channel -/
  | send (k : Nat)
  /-- the answer is complete -/
  | answer (k : Nat)
  /-- a line of the channel is shown -/
  | take (k : Nat)
  | leave (k : Nat)
  | cancel
  /-- a call is given up, with the files as what it had begun has left them -/
  | abandon (k : Nat) (left : Files)

def turned (s : Workshop) (k : Nat) (v : Visit) : Workshop :=
  match v.stage.turn s.installer v.entry v.channel.isEmpty with
  | none => s
  | some (stage, i) => (s.adopt i).put k { v with stage := stage }

/-- The machine has the files that are there, and sees whether the token of the call was signalled. -/
def asked (s : Workshop) (k : Nat) (v : Visit) (h : Host) : Workshop :=
  let h := { h with files := s.files, isCancelled := decide (k ∈ s.signalled) }
  match v.asked, v.stage.occasion? h with
  | none, some m => s.put k { v with asked := some h, unsent := m.lines }
  | _, _ => s

def sent (s : Workshop) (k : Nat) (v : Visit) : Workshop :=
  match v.unsent with
  | [] => s
  | line :: rest =>
    if v.channel.length < outputBuffer then
      s.put k { v with unsent := rest, channel := v.channel ++ [line] }
    else s

/-- An answer that tells of a cancellation is complete only when there was one. -/
def answered (s : Workshop) (k : Nat) (v : Visit) : Workshop :=
  match v.asked, v.occasion? with
  | some h, some m =>
    if v.unsent = [] ∧ (m.after.isCancelled = true → k ∈ s.signalled) then
      { s with files := m.after.files }.put k
        { v with stage := v.stage.resume h, log := v.log ++ [m], asked := none }
    else s
  | _, _ => s

def taken (s : Workshop) (k : Nat) (v : Visit) : Workshop :=
  match v.channel with
  | [] => s
  | line :: rest =>
    if v.stage.listens then
      (s.adopt (s.installer.revise (·.addLine line))).put k { v with channel := rest }
    else s

def left (s : Workshop) (k : Nat) (v : Visit) : Workshop :=
  match v.stage with
  | .leaving r _ => (s.release k).answers k (r.map Prod.fst)
  | _ => s

/-- A step of a call that has the place. -/
def step (s : Workshop) (k : Nat) (f : Workshop → Nat → Visit → Workshop) : Workshop :=
  match s.calls k with
  | none => s
  | some v => f s k v

/-- A move that cannot be made changes nothing. -/
def next (s : Workshop) : Move → Workshop
  | .begin e => s.begin e
  | .turn k => s.step k turned
  | .ask k h => s.step k fun s k v => s.asked k v h
  | .send k => s.step k sent
  | .answer k => s.step k answered
  | .take k => s.step k taken
  | .leave k => s.step k left
  | .cancel => s.cancel.2
  | .abandon k files => s.step k fun s k _ => { s with files := files }.release k

def run (s : Workshop) (moves : List Move) : Workshop := moves.foldl next s

theorem run_append (s : Workshop) (first rest : List Move) :
    s.run (first ++ rest) = (s.run first).run rest := List.foldl_append

theorem calls_put (s : Workshop) (k : Nat) (v : Visit) : (s.put k v).calls k = some v :=
  Function.update_self ..

/-! The moves that a call can make. -/

section moves
variable {s : Workshop} {k : Nat} {v : Visit}

theorem next_turn (there : s.calls k = some v) {stage : Stage} {i : Installer}
    (turns : v.stage.turn s.installer v.entry v.channel.isEmpty = some (stage, i)) :
    s.next (.turn k) = (s.adopt i).put k { v with stage := stage } := by
  simp only [next, step, there, turned, turns]

theorem next_ask (there : s.calls k = some v) {h : Host} {m : Occasion} (unasked : v.asked = none)
    (files : h.files = s.files) (cancelled : h.isCancelled = decide (k ∈ s.signalled))
    (asks : v.stage.occasion? h = some m) :
    s.next (.ask k h) = s.put k { v with asked := some h, unsent := m.lines } := by
  have same : { h with files := s.files, isCancelled := decide (k ∈ s.signalled) } = h := by
    rw [← files, ← cancelled]
  simp only [next, step, there, asked, same, unasked, asks]

theorem next_send (there : s.calls k = some v) {line : String} {rest : List String}
    (waits : v.unsent = line :: rest) (room : v.channel.length < outputBuffer) :
    s.next (.send k) = s.put k { v with unsent := rest, channel := v.channel ++ [line] } := by
  simp only [next, step, there, sent, waits, room, if_true]

theorem next_take (there : s.calls k = some v) {line : String} {rest : List String}
    (waits : v.channel = line :: rest) (listens : v.stage.listens = true) :
    s.next (.take k) =
      (s.adopt (s.installer.revise (·.addLine line))).put k { v with channel := rest } := by
  simp only [next, step, there, taken, waits, listens, if_true]

theorem next_answer (there : s.calls k = some v) {h : Host} {m : Occasion} (asked : v.asked = some h)
    (asks : v.stage.occasion? h = some m) (unsent : v.unsent = [])
    (signalled : m.after.isCancelled = true → k ∈ s.signalled) :
    s.next (.answer k) = { s with files := m.after.files }.put k
      { v with stage := v.stage.resume h, log := v.log ++ [m], asked := none } := by
  have pending : v.occasion? = some m := by
    rw [Visit.occasion?, asked]
    exact asks
  simp only [next, step, there, answered, asked, pending]
  exact if_pos ⟨unsent, signalled⟩

end moves

/-- What a move can do, and what then is known of the call that it is a step of. -/
inductive Steps (s : Workshop) : Workshop → Prop
  | stay : Steps s s
  | begin {e : RegistryEntry} : Steps s (s.begin e)
  | turn {k : Nat} {v : Visit} {stage : Stage} {i : Installer} (there : s.calls k = some v)
      (turns : v.stage.turn s.installer v.entry v.channel.isEmpty = some (stage, i)) :
    Steps s ((s.adopt i).put k { v with stage := stage })
  | ask {k : Nat} {v : Visit} {h : Host} {m : Occasion} (there : s.calls k = some v)
      (unasked : v.asked = none) (files : h.files = s.files) (asks : v.stage.occasion? h = some m) :
    Steps s (s.put k { v with asked := some h, unsent := m.lines })
  | send {k : Nat} {v : Visit} {line : String} {rest : List String} (there : s.calls k = some v)
      (waits : v.unsent = line :: rest) (room : v.channel.length < outputBuffer) :
    Steps s (s.put k { v with unsent := rest, channel := v.channel ++ [line] })
  | answer {k : Nat} {v : Visit} {h : Host} {m : Occasion} (there : s.calls k = some v)
      (asked : v.asked = some h) (asks : v.stage.occasion? h = some m) (unsent : v.unsent = []) :
    Steps s ({ s with files := m.after.files }.put k
      { v with stage := v.stage.resume h, log := v.log ++ [m], asked := none })
  | take {k : Nat} {v : Visit} {line : String} {rest : List String} (there : s.calls k = some v)
      (waits : v.channel = line :: rest) :
    Steps s ((s.adopt (s.installer.revise (·.addLine line))).put k { v with channel := rest })
  | leave {k : Nat} {v : Visit} {r : Except Error ServerBinary} (there : s.calls k = some v) :
    Steps s ((s.release k).answers k r)
  | cancel : Steps s s.cancel.2
  | abandon {k : Nat} {v : Visit} {files : Files} (there : s.calls k = some v) :
    Steps s ({ s with files := files }.release k)

theorem steps_next (s : Workshop) (m : Move) : s.Steps (s.next m) := by
  have step (k : Nat) (f : Workshop → Nat → Visit → Workshop)
      (steps : ∀ v, s.calls k = some v → s.Steps (f s k v)) : s.Steps (s.step k f) := by
    unfold Workshop.step
    split
    · exact .stay
    · next v there => exact steps v there
  cases m with
  | begin e => exact .begin
  | turn k =>
      refine step k _ fun v there => ?_
      unfold turned
      split
      · exact .stay
      · next turns => exact .turn there turns
  | ask k h =>
      refine step k (fun s k v => s.asked k v h) fun v there => ?_
      unfold asked
      dsimp only
      split
      · next unasked asks => exact .ask there unasked rfl asks
      · exact .stay
  | send k =>
      refine step k _ fun v there => ?_
      unfold sent
      split
      · exact .stay
      · next waits =>
          split
          · next room => exact .send there waits room
          · exact .stay
  | answer k =>
      refine step k _ fun v there => ?_
      unfold answered
      split
      · next h m asked pending =>
          rw [Visit.occasion?, asked] at pending
          split
          · next ready => exact .answer there asked pending ready.1
          · exact .stay
      · exact .stay
  | take k =>
      refine step k _ fun v there => ?_
      unfold taken
      split
      · exact .stay
      · next waits =>
          split
          · exact .take there waits
          · exact .stay
  | leave k =>
      refine step k _ fun v there => ?_
      unfold left
      split
      · exact .leave there
      · exact .stay
  | cancel => exact .cancel
  | abandon k files =>
      exact step k (fun s k _ => { s with files := files }.release k) fun v there => .abandon there

end Workshop

end LanguageHost
