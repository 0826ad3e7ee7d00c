import LanguageHost.Protocol.Frame
import LanguageHost.Table
import LanguageHost.Text.Replace

/-!
A language server that follows a script: for each method what it does when such a message comes. A script
stands for any server, as what a server sends depends on what it has received and on nothing else.
-/
namespace LanguageHost

/-- What a scripted server answers to a request. -/
inductive ScriptedAnswer where
  | result (j : Json)
  | error (j : Json)
  /-- octets that are sent as they are -/
  | raw (bs : Octets)
  /-- a body without its header -/
  | body (bs : Octets)

/-- What a scripted server does when a message comes. -/
structure Cue where
  /-- the answer to a request, when it is not the usual one -/
  answer : Option ScriptedAnswer
  /-- nothing is answered -/
  ignores : Bool
  /-- the answer is kept until after the next one that is not -/
  holds : Bool
  /-- what is sent afterwards -/
  sends : List Json
  closes : Bool

structure Script where
  /-- for each method what is done, time after time; the last repeats -/
  cues : Table (List Cue)
  /-- whether the server stays when its input is closed -/
  lingers : Bool

def Cue.usual : Cue := ⟨none, false, false, [], false⟩

namespace Script

def empty : Script := ⟨[], false⟩

/-- What is done when a message of a method comes after `count` others. -/
def cue (s : Script) (method : String) (count : Nat) : Cue :=
  let cues := (s.cues.get? method).getD []
  (cues[count]?.or cues.getLast?).getD .usual

end Script

structure Peer where
  script : Script
  /-- how many messages of each method have come -/
  counts : Table Nat
  /-- answers that are kept, the latest first -/
  held : List Octets
  /-- what has come -/
  received : List Message
  isOpen : Bool

namespace Peer

def ofScript (s : Script) : Peer := ⟨s, [], [], [], true⟩

/-- A server that has ended. -/
def ended : Peer := { ofScript .empty with isOpen := false }

def bodyOf (j : Json) : Octets := Frame.encode (Utf8.ofString j.compact)

/-- What an answer looks like on the wire. -/
def wire (id : RequestId) (members : List (String × Json)) : Octets :=
  bodyOf (.obj ([("jsonrpc", .str "2.0"), ("id", id.toJson)] ++ members))

/-- What stands for the identifier of a request in octets that answer it. -/
def idMark : Octets := Utf8.ofString "$ID"

def idText : RequestId → String
  | .number n => toString n.toInt
  | .text s => s

/-- What a server can do that says nothing about it. -/
def plainGreeting : Json := .obj [
  ("capabilities", .obj [("documentSymbolProvider", .bool true)]),
  ("serverInfo", .obj [("name", .str "fake-ls"), ("version", .str "0.0.1")])]

def usualAnswer (method : String) : ScriptedAnswer :=
  match method with
  | "initialize" => .result plainGreeting
  | "shutdown" => .result .null
  | _ => .error (.obj [("code", .int ResponseError.methodNotFound.toInt),
      ("message", .str (method ++ " is not supported"))])

def answerOctets (id : RequestId) : ScriptedAnswer → Octets
  | .result j => wire id [("result", j)]
  | .error j => wire id [("error", j)]
  | .raw bs => Text.replaceAll idMark (Utf8.ofString (idText id)) bs
  | .body bs => Frame.encode (Text.replaceAll idMark (Utf8.ofString (idText id)) bs)

def methodOf : Message → Option String
  | .request r => some r.method
  | .notification n => some n.method
  | .response _ => none

/-- What is answered to a message: its octets, unless there is none. -/
def answerOf (cue : Cue) : Message → Option Octets
  | .request r =>
    if cue.ignores ∨ cue.closes then none
    else some (answerOctets r.id (cue.answer.getD (usualAnswer r.method)))
  | _ => none

/-- Whether the server ends after a message. -/
def endsAfter (cue : Cue) (method : String) : Bool :=
  cue.closes || (method == "exit" && !cue.ignores)

/-- Takes a message in; the answer is what the server sends then. -/
def receive (p : Peer) (m : Message) : Octets × Peer :=
  let p := { p with received := p.received ++ [m] }
  match methodOf m with
  | none => ([], p)
  | some method =>
    let count := (p.counts.get? method).getD 0
    let cue := p.script.cue method count
    let p := { p with counts := p.counts.insert method (count + 1) }
    let (sent, p) : Octets × Peer := match answerOf cue m with
      | none => ([], p)
      | some bs =>
        if cue.holds then ([], { p with held := bs :: p.held })
        else (bs ++ p.held.flatten, { p with held := [] })
    (sent ++ cue.sends.flatMap bodyOf, { p with isOpen := !endsAfter cue method })

def finish (p : Peer) : Peer := { p with isOpen := p.script.lingers }

end Peer

end LanguageHost
