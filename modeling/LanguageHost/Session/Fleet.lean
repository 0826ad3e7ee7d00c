import LanguageHost.Config.Manifest
import LanguageHost.Session.Exchange

/-!
The servers of a host, at most one for each language. Whoever starts or stops the server of a language
holds the language's slot meanwhile; calls for one slot are served in the order in which they come, and
languages do not wait for each other.
-/
namespace LanguageHost

/-- A server that has just been started. -/
structure Connection where
  server : Peer
  /-- how its process was started, when it has one -/
  process : Option Invocation

/-- How servers are started. -/
abbrev Launcher := String → ServerBinary → ClientConfig → Except Error Connection

structure Slot where
  /-- the calls that want the slot; the first one holds it -/
  queue : List Nat
  /-- the link of the server that was started -/
  active : Option Nat
  /-- the link that others are told of, and how its server was launched -/
  running : Option (Nat × LaunchConfig)

namespace Slot

def empty : Slot := ⟨[], none, none⟩

end Slot

structure Fleet where
  /-- milliseconds since the start -/
  now : Nat
  /-- all connections ever made, in order -/
  links : List Link
  /-- what servers reported, in order -/
  events : List LanguageEvent
  slots : Table Slot
  config : String → Option LaunchConfig
  /-- how long queries wait, in milliseconds -/
  timeout : Nat
  launcher : Launcher

structure StartRequest where
  language : String
  root : Path
  folders : List Path
  policy : StartPolicy

namespace Fleet

def slot (f : Fleet) (language : String) : Slot := (f.slots.get? language).getD .empty

def setSlot (f : Fleet) (language : String) (s : Slot) : Fleet :=
  { f with slots := f.slots.insert language s }

def changeSlot (f : Fleet) (language : String) (change : Slot → Slot) : Fleet :=
  f.setSlot language (change (f.slot language))

def setLink (f : Fleet) (i : Nat) (l : Link) : Fleet := { f with links := f.links.set i l }

/-- One step of a machine that works on a link. -/
def onLink (f : Fleet) (i : Nat) (step : Link → Link × α) (missing : α) : Fleet × α :=
  match f.links[i]? with
  | none => (f, missing)
  | some l =>
    let (l, a) := step l
    (f.setLink i l, a)

/-- One step of a machine that works on a client. -/
def onClient (f : Fleet) (i : Nat) (step : Client → Client × α) (missing : α) : Fleet × α :=
  f.onLink i (fun l => l.onClient step) missing

/-! The slots. -/

/-- A language has a slot from now on. -/
def provide (f : Fleet) (language : String) : Fleet := f.changeSlot language id

/-- Asks for a slot. -/
def join (f : Fleet) (language : String) (ticket : Nat) : Fleet :=
  f.changeSlot language fun s => { s with queue := s.queue ++ [ticket] }

def holds (f : Fleet) (language : String) (ticket : Nat) : Bool :=
  (f.slot language).queue.head? == some ticket

def leave (f : Fleet) (language : String) (ticket : Nat) : Fleet :=
  f.changeSlot language fun s => { s with queue := s.queue.filter (· ≠ ticket) }

/-- Says which link is the started one; only the holder of the slot sees it. -/
def appoint (f : Fleet) (language : String) (active : Option Nat) : Fleet :=
  f.changeSlot language fun s => { s with active := active }

/-- Says which link others are told of. -/
def publish (f : Fleet) (language : String) (running : Option (Nat × LaunchConfig)) : Fleet :=
  f.changeSlot language fun s => { s with running := running }

/-! Starting. -/

inductive StartStage where
  | fresh
  | found
  | queued
  /-- others are no longer told of the server that is replaced -/
  | unpublished
  | replacing (link : Nat) (s : StopStage)
  | launching
  | greeting (link : Nat) (config : LaunchConfig) (s : GreetStage)
  /-- the server cannot be used -/
  | failed (link : Nat) (e : Error)
  | greeted (link : Nat) (config : LaunchConfig)
  | listening (link : Nat) (config : LaunchConfig)
  | published (link : Nat)

/-- How a language's server is to be launched. -/
def launchConfig (f : Fleet) (language : String) : Except Error LaunchConfig :=
  match f.config language with
  | none => .error (.config ("No language server configured for " ++ language))
  | some c =>
    if c.enabled then .ok c
    else .error (.config ("Language server for " ++ language ++ " is disabled"))

/-- Starts a server; the answer is the number of its link. -/
def launch (f : Fleet) (r : StartRequest) : Except Error (Nat × LaunchConfig × Fleet) := do
  let config ← f.launchConfig r.language
  let session : ClientConfig := ⟨r.root, r.folders, config.initOptions, f.timeout⟩
  let connection ← f.launcher r.language config.binary session
  let link := Link.connect (.connect r.language session) connection.server connection.process
  .ok (f.links.length, config, { f with links := f.links ++ [link] })

/-- Starting a server for a language. One that is there is in the way, or is stopped first. A server
that does not get through the first request is dropped. -/
def start (ticket : Nat) (r : StartRequest) (f : Fleet) :
    StartStage → Fleet × Turn StartStage (Except Error Nat)
  | .fresh => (f.provide r.language, .go .found)
  | .found => (f.join r.language ticket, .go .queued)
  | .queued =>
    if !f.holds r.language ticket then (f, .wait none)
    else match (f.slot r.language).active, r.policy with
      | none, _ => (f, .go .launching)
      | some _, .reject =>
        (f.leave r.language ticket, .done (.error (.alreadyRunning r.language)))
      | some _, .replace => (f.publish r.language none, .go .unpublished)
  | .unpublished =>
    match (f.slot r.language).active with
    | none => (f, .go .launching)
    | some i => (f.appoint r.language none, .go (.replacing i .silencing))
  | .replacing i s =>
    match f.onLink i (fun l => l.stop f.now s) (.done (.ok ())) with
    | (f, .done _) => (f, .go .launching)
    | (f, .go s) => (f, .go (.replacing i s))
    | (f, .wait d) => (f, .wait d)
  | .launching =>
    match f.launch r with
    | .error e => (f.leave r.language ticket, .done (.error e))
    | .ok (i, config, f) => (f, .go (.greeting i config .fresh))
  | .greeting i config s =>
    match f.onClient i (fun c => c.greet f.now s) (.done (.error (.crashed r.language))) with
    | (f, .done (.error e)) => (f, .go (.failed i e))
    | (f, .done (.ok _)) => (f, .go (.greeted i config))
    | (f, .go s) => (f, .go (.greeting i config s))
    | (f, .wait d) => (f, .wait d)
  | .failed i e =>
    let (f, _) := f.onLink i (fun l => (l.terminate, ())) ()
    (f.leave r.language ticket, .done (.error e))
  | .greeted i config =>
    match f.onLink i (fun l => (l.startListening config.settings).swap) false with
    | (f, true) => (f, .go (.listening i config))
    | (f, false) => (f, .go (.failed i (.protocol "Server events were already taken")))
  | .listening i config => (f.publish r.language (some (i, config)), .go (.published i))
  | .published i =>
    ((f.appoint r.language (some i)).leave r.language ticket, .done (.ok i))

/-! Stopping. -/

inductive EvictStage where
  | found
  | queued
  /-- the server is no longer the started one -/
  | taken (link : Nat)
  | ending (link : Nat) (s : StopStage)

/-- Stopping the server of a slot, if there is one; the slot is free afterwards, however the server takes
it. -/
def evict (ticket : Nat) (language : String) (f : Fleet) :
    EvictStage → Fleet × Turn EvictStage (Option (Except Error Unit))
  | .found => (f.join language ticket, .go .queued)
  | .queued =>
    if !f.holds language ticket then (f, .wait none)
    else match (f.slot language).active with
      | none => (f.leave language ticket, .done none)
      | some i => (f.appoint language none, .go (.taken i))
  | .taken i => (f.publish language none, .go (.ending i .silencing))
  | .ending i s =>
    match f.onLink i (fun l => l.stop f.now s) (.done (.ok ())) with
    | (f, .done r) => (f.leave language ticket, .done (some r))
    | (f, .go s) => (f, .go (.ending i s))
    | (f, .wait d) => (f, .wait d)

inductive QuitStage where
  | fresh
  | evicting (s : EvictStage)

/-- Stopping the server of a language. -/
def stop (ticket : Nat) (language : String) (f : Fleet) :
    QuitStage → Fleet × Turn QuitStage (Except Error Unit)
  | .fresh =>
    if f.slots.contains language then (f, .go (.evicting .found))
    else (f, .done (.error (.notRunning language)))
  | .evicting s =>
    let (f, turn) := f.evict ticket language s
    (f, turn.lift .evicting fun r => r.getD (.error (.notRunning language)))

abbrev Failures := List (String × Error)

inductive QuitAllStage where
  | fresh
  /-- the languages still to stop, and the failures so far -/
  | next (todo : List String) (failures : Failures)
  | evicting (language : String) (s : EvictStage) (todo : List String) (failures : Failures)

def withFailure (failures : Failures) (language : String) : Option (Except Error Unit) → Failures
  | some (.error e) => failures ++ [(language, e)]
  | _ => failures

/-- The failures in the order of their languages. -/
def sortFailures (failures : Failures) : Failures := failures.mergeSort fun a b => a.1 ≤ b.1

/-- Stopping every server, one after the other; a failure does not keep the others from being stopped. -/
def stopAll (ticket : Nat) (f : Fleet) :
    QuitAllStage → Fleet × Turn QuitAllStage (Except ShutdownErrors Unit)
  | .fresh => (f, .go (.next f.slots.keys []))
  | .next [] failures =>
    (f, .done (if failures.isEmpty then .ok () else .error ⟨sortFailures failures⟩))
  | .next (language :: todo) failures => (f, .go (.evicting language .found todo failures))
  | .evicting language s todo failures =>
    match f.evict ticket language s with
    | (f, .done r) => (f, .go (.next todo (withFailure failures language r)))
    | (f, .go s) => (f, .go (.evicting language s todo failures))
    | (f, .wait d) => (f, .wait d)

/-! The running servers. -/

def running? (f : Fleet) (language : String) : Option Nat :=
  ((f.slots.get? language).bind (·.running)).map Prod.fst

def runningConfig? (f : Fleet) (language : String) : Option LaunchConfig :=
  ((f.slots.get? language).bind (·.running)).map Prod.snd

/-- The languages with a running server, in order. -/
def activeLanguages (f : Fleet) : List String :=
  (f.slots.filter fun (_, s) => s.running.isSome).map Prod.fst

/-- Passes something about a document on to the running server of its language. -/
def onDocument (f : Fleet) (language : String)
    (change : Client → Except Error (DocumentChange × Client)) :
    Except Error DocumentChange × Fleet :=
  match f.running? language with
  | none => (.error (.notRunning language), f)
  | some i =>
    let (f, r) := f.onClient i (fun c =>
      match change c with
      | .ok (d, c) => (c, .ok d)
      | .error e => (c, .error e)) (.error (.notRunning language))
    (r, f)

def openDocument (f : Fleet) (language : String) (d : Document) :=
  f.onDocument language fun c => c.openDocument d

def closeDocument (f : Fleet) (language uri : String) :=
  f.onDocument language fun c => c.closeDocument uri

end Fleet

end LanguageHost
