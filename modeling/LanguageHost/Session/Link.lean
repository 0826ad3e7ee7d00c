import LanguageHost.Machine.Process
import LanguageHost.Session.Listener
import LanguageHost.Session.Peer

/-!
A client and its server, with what is under way between them. Four hands move it, one atomic step at a
time: the writer takes what is queued to the server, the server acts on it, the reader takes the server's
output apart, and the listener deals with what the server sends of its own accord. `Link.step` is the
step of one hand; any order of such steps is a run.
-/
namespace LanguageHost

/-- Whether somebody listens to what a server sends of its own accord. -/
inductive Listening where
  /-- nobody yet -/
  | waiting
  | running (settings : Option Json)
  | stopped

structure Link where
  client : Client
  /-- messages on their way to the server -/
  toServer : List Message
  /-- whether the client may still write to the server -/
  isInputOpen : Bool
  /-- octets on their way to the client -/
  toClient : Octets
  server : Peer
  decoder : Decoder
  /-- what the server has sent of its own accord -/
  inbox : List Message
  listening : Listening
  /-- whether the listener was told to stop -/
  isCancelled : Bool
  /-- how the server's process was started, when it has one -/
  process : Option Invocation
  /-- whether the client still holds the process -/
  holdsProcess : Bool

inductive Hand where
  | writer | server | reader | listener
deriving DecidableEq, Repr

namespace Link

def connect (client : Client) (server : Peer) (process : Option Invocation) : Link where
  client := client
  toServer := []
  isInputOpen := true
  toClient := []
  server := server
  decoder := .empty
  inbox := []
  listening := .waiting
  isCancelled := false
  process := process
  holdsProcess := process.isSome

/-- Nothing is written any more. -/
def closeInput (l : Link) : Link :=
  { l with client := { l.client with isQueueOpen := false, outbound := [] }, isInputOpen := false }

/-- The writer stops when the connection is gone, when it is told to, or when the server has ended. -/
def write (l : Link) : Option Link :=
  if !l.client.isQueueOpen then none
  else if l.client.isClosed then some l.closeInput
  else match l.client.outbound with
    | [] => none
    | .close :: _ => some l.closeInput
    | .message m :: rest =>
      if l.server.isOpen then
        some { l with client := { l.client with outbound := rest }, toServer := l.toServer ++ [m] }
      else some l.closeInput

/-- The server takes in a message, or the end of its input. -/
def serve (l : Link) : Option Link :=
  if !l.server.isOpen then none
  else match l.toServer with
    | m :: rest =>
      let (sent, server) := l.server.receive m
      some { l with toServer := rest, toClient := l.toClient ++ sent, server := server }
    | [] =>
      if l.isInputOpen then none
      else
        let server := l.server.finish
        if server.isOpen then none else some { l with server := server }

/-- Nothing is read any more, and so nothing waits any longer. -/
def closeOutput (l : Link) : Link :=
  { l with client := { l.client.release.disconnect with isReading := false } }

/-- Responses go to those who wait for them, all else to the inbox. -/
def route (l : Link) (m : Message) : Link :=
  match m with
  | .response r => { l with client := l.client.accept r }
  | m =>
    match l.listening with
    | .stopped => l
    | _ => { l with inbox := l.inbox ++ [m] }

/-- The reader takes up one message. It stops when the connection is gone, at a bad header, and at the
end of the output. -/
def read (l : Link) : Option Link :=
  if !l.client.isReading then none
  else if l.client.isClosed then some l.closeOutput
  else match l.decoder.next with
    | .message m rest => some ({ l with decoder := rest }.route m)
    | .fault _ rest => some { l with decoder := rest }.closeOutput
    | .wait rest =>
      if !l.toClient.isEmpty then
        some { l with decoder := rest.push l.toClient, toClient := [] }
      else if l.server.isOpen then none
      else some { l with decoder := rest }.closeOutput

/-- The listener takes up one message. When no more can come the server has exited. -/
def listen (l : Link) : Option (Link × List Report) :=
  match l.listening with
  | .running settings =>
    match l.inbox with
    | m :: rest =>
      let (client, reports) := Listener.dispatch settings l.client m
      some ({ l with client := client, inbox := rest }, reports)
    | [] => if l.client.isReading then none else some ({ l with listening := .stopped }, [.exited])
  | _ => none

/-- One step of a hand, if it has anything to do, and what it reports. -/
def step (l : Link) : Hand → Option (Link × List Report)
  | .writer => l.write.map fun l => (l, [])
  | .server => l.serve.map fun l => (l, [])
  | .reader => l.read.map fun l => (l, [])
  | .listener => l.listen

/-- Listens from now on, unless somebody has before. -/
def startListening (l : Link) (settings : Option Json) : Bool × Link :=
  match l.listening with
  | .waiting => (true, { l with listening := .running settings })
  | _ => (false, l)

/-- Listens no longer, and forgets what has come. -/
def stopListening (l : Link) : Link :=
  match l.listening with
  | .waiting => l
  | _ => { l with listening := .stopped, isCancelled := true, inbox := [] }

/-- Octets that the server sends now; none when it has ended. -/
def emit (l : Link) (bs : Octets) : Option Link :=
  if l.server.isOpen then some { l with toClient := l.toClient ++ bs } else none

def kill (l : Link) : Link := { l with server := { l.server with isOpen := false } }

/-- Drops the connection at once; a process is ended. -/
def terminate (l : Link) : Link :=
  let l := { l with client := l.client.disconnect }
  if l.holdsProcess then { l.kill with holdsProcess := false } else l

/-! Moving on until nothing is left to do. -/

/-- How many octets a pipe holds. -/
def pipeSize : Nat := 65536

/-- A hand that is still getting rid of what it wrote, because the other end does not take it. -/
def isHeld (l : Link) : Hand → Bool
  | .writer => l.server.isOpen && pipeSize < (l.toServer.flatMap fun m => Frame.encode m.body).length
  | .server => pipeSize < l.toClient.length
  | _ => false

/-- The first hand that can move, moves. -/
def advance (l : Link) : Option (Link × List Report) :=
  [Hand.writer, .reader, .server, .listener].findSome? fun hand => if l.isHeld hand then none else l.step hand

/-- How many octets a cue makes the server send, frames' headers apart. -/
def reach (cue : Cue) : Nat :=
  (cue.sends.flatMap Peer.bodyOf).length + match cue.answer with
    | some (.result j) | some (.error j) => (Peer.bodyOf j).length
    | some (.raw bs) | some (.body bs) => bs.length
    | none => 0

/-- How many octets a server can send at one message. -/
def voice (p : Peer) : Nat :=
  (p.script.cues.flatMap Prod.snd).foldl (fun n cue => n + reach cue) (p.held.flatten.length + 1024)

/-- More steps than the link can take by itself: every message and every octet under way is moved by
each hand once, and may set the server speaking. -/
def work (l : Link) : Nat :=
  let messages := l.client.outbound.length + l.toServer.length + l.inbox.length + 1
  8 * messages * (voice l.server + l.toClient.length + l.decoder.buffer.length + 1)

/-- Steps until none is left, and all that is reported meanwhile. -/
def settle (fuel : Nat) (l : Link) : Link × List Report :=
  match fuel with
  | 0 => (l, [])
  | fuel + 1 =>
    match l.advance with
    | none => (l, [])
    | some (l, reports) =>
      let (l, later) := settle fuel l
      (l, reports ++ later)

/-- The link once all that is under way has arrived. -/
def quiet (l : Link) : Link × List Report := settle l.work l

end Link

end LanguageHost
