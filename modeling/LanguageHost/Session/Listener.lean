import LanguageHost.Protocol.Incoming
import LanguageHost.Session.Client

/-!
What the host makes of a server's own messages: it answers each request, remembers what the server tells
of documents and of itself, and reports what people may want to see.
-/
namespace LanguageHost

/-- Something that a server reported. -/
inductive Report where
  | diagnostics (uri : String) (list : List Json)
  | message (type : Int) (text : String)
  /-- the server asked for an edit, which was not applied -/
  | applyEdit (edit : Json)
  | showDocument (params : Json)
  | progress (params : Json)
  | refresh (method : ServerMethod)
  /-- the server's output ended without a stop being asked for -/
  | exited

/-- A report, and the language whose server made it. -/
structure LanguageEvent where
  language : String
  report : Report

namespace Listener

/-- The items of a member that is a list. -/
def itemsOf (key : String) (j : Json) : List Json :=
  match j.get? key with
  | some (.arr items) => items
  | _ => []

def textOf (key : String) (j : Json) : String := ((j.get? key).bind Json.str?).getD ""

def memberOf (key : String) (j : Json) : Json := (j.get? key).getD .null

def intOf (key : String) (j : Json) : Int :=
  match j.get? key with
  | some (.int n) => n
  | _ => 0

/-- What the settings hold at the end of a chain of keys. -/
def follow (settings : Json) (keys : List String) : Option Json :=
  keys.foldlM (fun j key => j.get? key) settings

/-- The settings of a section, whose name is a chain of keys with dots between; without a name they are
the whole settings. -/
def settingsOf (settings : Option Json) (name : Option String) : Json :=
  match settings, name with
  | none, _ => .null
  | some j, none | some j, some "" => j
  | some j, some name => (follow j (Text.split '.' name)).getD .null

/-- One answer for each item that is asked for. -/
def configuration (settings : Option Json) (params : Json) : Json :=
  .arr ((itemsOf "items" params).map fun item =>
    settingsOf settings ((item.get? "section").bind Json.str?))

/-- A client that has taken in a message, with what is reported and answered. -/
structure Reaction where
  client : Client
  reports : List Report
  response : Option Response

/-- The result of a request whose parameters fit its method. -/
def answer (settings : Option Json) (c : Client) (m : ServerMethod) (params : Json) :
    Json × Client × List Report :=
  match m with
  | .configuration => (configuration settings params, c, [])
  | .folders => (.arr c.workspaceFolders, c, [])
  | .applyEdit =>
    (.obj [("applied", .bool false), ("failureReason", .str "edits are applied by the editor")], c,
      [.applyEdit (memberOf "edit" params)])
  | .register =>
    (.null, c.registerAll ((itemsOf "registrations" params).map fun r => (textOf "id" r, r)), [])
  | .unregister =>
    (.null, c.unregisterAll ((itemsOf "unregisterations" params).map (textOf "id")), [])
  | .refreshLenses | .refreshTokens => (.null, c, [.refresh m])
  | .askMessage => (.null, c, [.message (intOf "type" params) (textOf "message" params)])
  | .showDocument => (.obj [("success", .bool false)], c, [.showDocument params])
  | .createProgress => (.null, c, [])

/-- A request is always answered: by its result, or by what is wrong with it. -/
def onRequest (settings : Option Json) (c : Client) (r : Request) : Reaction :=
  match ServerMethod.understand r.method r.params with
  | .unsupported =>
    ⟨c, [], some (.failure r.id ResponseError.methodNotFound (r.method ++ " is not supported"))⟩
  | .malformed =>
    ⟨c, [], some (.failure r.id ResponseError.invalidParams (Error.json "unexpected parameters").message)⟩
  | .known m params =>
    let (result, c, reports) := answer settings c m params
    ⟨c, reports, some (.ok r.id result)⟩

def onNotification (c : Client) (n : Notification) : Reaction :=
  match NoticeMethod.understand n.method n.params with
  | .known .message params =>
    ⟨c, [.message (intOf "type" params) (textOf "message" params)], none⟩
  | .known .diagnostics params =>
    let uri := textOf "uri" params
    let list := itemsOf "diagnostics" params
    ⟨c.recordDiagnostics uri list, [.diagnostics uri list], none⟩
  | .known .progress params => ⟨c, [.progress params], none⟩
  | _ => ⟨c, [], none⟩

def react (settings : Option Json) (c : Client) : Message → Reaction
  | .request r => onRequest settings c r
  | .notification n => onNotification c n
  | .response _ => ⟨c, [], none⟩

/-- Takes a message in; the answer is queued if it still can be. -/
def dispatch (settings : Option Json) (c : Client) (m : Message) : Client × List Report :=
  let r := react settings c m
  match r.response with
  | none => (r.client, r.reports)
  | some response =>
    match r.client.respond response with
    | .ok c => (c, r.reports)
    | .error _ => (r.client, r.reports)

end Listener

end LanguageHost
