import LanguageHost.Json.Parser
import LanguageHost.Json.Printer
import LanguageHost.Json.Record

/-!
Messages between a host and a server. A body is read as the first that fits of request, response and
notification; free-form parts are canonical values.
-/
namespace LanguageHost

inductive RequestId where
  | number (n : Int32)
  | text (s : String)
deriving DecidableEq, Inhabited, Repr

namespace RequestId

def toJson : RequestId → Json
  | .number n => .int n.toInt
  | .text s => .str s

def ofJson? : Json → Option RequestId
  | .str s => some (.text s)
  | j => j.int32?.map fun n => .number (.ofInt n)

end RequestId

structure ResponseError where
  code : Int32
  message : String
  data : Option Json

namespace ResponseError

def toJson (e : ResponseError) : Json :=
  .obj ([("code", .int e.code.toInt), ("message", .str e.message)] ++
    (e.data.map fun d => ("data", d.canonical)).toList)

def ofJson? (j : Json) : Option ResponseError := do
  let r ← Json.Record.ofJson? ["code", "message", "data"] j
  let code ← r.required "code" Json.int32?
  pure ⟨.ofInt code, ← r.required "message" Json.str?, ← r.optional "data" Json.free?⟩

def methodNotFound : Int32 := -32601

def invalidParams : Int32 := -32602

end ResponseError

structure Request where
  id : RequestId
  method : String
  params : Json

structure Response where
  id : RequestId
  result : Option Json
  error : Option ResponseError

namespace Response

def ok (id : RequestId) (result : Json) : Response := ⟨id, some result, none⟩

def failure (id : RequestId) (code : Int32) (message : String) : Response :=
  ⟨id, none, some ⟨code, message, none⟩⟩

end Response

structure Notification where
  method : String
  params : Json

inductive Message where
  | request (r : Request)
  | response (r : Response)
  | notification (n : Notification)

namespace Message

/-- Parameters as they are written: null ones are left out. -/
def paramsMember : Json → List (String × Json)
  | .null => []
  | j => [("params", j.canonical)]

/-- The members of a message in the order in which they are written. -/
def members : Message → List (String × Json)
  | .request r => [("id", r.id.toJson), ("method", .str r.method)] ++ paramsMember r.params
  | .response r => [("id", r.id.toJson)] ++ (r.result.map fun j => ("result", j.canonical)).toList ++
      (r.error.map fun e => ("error", e.toJson)).toList
  | .notification n => ("method", .str n.method) :: paramsMember n.params

def toJson (m : Message) : Json := .obj (("jsonrpc", .str "2.0") :: m.members)

def requestOfJson? (j : Json) : Option Request := do
  let r ← Json.Record.ofJson? ["id", "method", "params"] j
  pure ⟨← r.required "id" RequestId.ofJson?, ← r.required "method" Json.str?,
    ← r.defaulted "params" .null Json.free?⟩

/-- A null result is as good as none. -/
def responseOfJson? (j : Json) : Option Response := do
  let r ← Json.Record.ofJson? ["id", "result", "error"] j
  pure ⟨← r.required "id" RequestId.ofJson?, ← r.optional "result" Json.free?,
    ← r.optional "error" ResponseError.ofJson?⟩

def notificationOfJson? (j : Json) : Option Notification := do
  let r ← Json.Record.ofJson? ["method", "params"] j
  pure ⟨← r.required "method" Json.str?, ← r.defaulted "params" .null Json.free?⟩

def ofJson? (j : Json) : Option Message :=
  match requestOfJson? j with
  | some r => some (.request r)
  | none =>
    match responseOfJson? j with
    | some r => some (.response r)
    | none => (notificationOfJson? j).map .notification

def body (m : Message) : Octets := Utf8.ofString m.toJson.compact

def ofBody? (bs : Octets) : Option Message := (Json.ofOctets? bs).bind ofJson?

end Message

end LanguageHost
