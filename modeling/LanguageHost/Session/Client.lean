import LanguageHost.Error
import LanguageHost.Protocol.Message
import LanguageHost.Session.Query
import LanguageHost.Text.Literal

/-!
The client of one server, as a value: the queries it waits for, what it has queued to be sent, and what
it knows about documents and the server. Every operation is one atomic step; an operation that fails
leaves the client as it was.
-/
namespace LanguageHost

structure ClientConfig where
  root : Path
  /-- further folders of the workspace -/
  folders : List Path
  initOptions : Option Json
  /-- how long a query waits, in milliseconds -/
  timeout : Nat

/-- What is queued for the server. -/
inductive Outbound where
  | message (m : Message)
  /-- nothing more will come -/
  | close

/-- What opening or closing a document came to. -/
inductive DocumentChange where
  | opened | alreadyOpen | closed | notOpen
deriving DecidableEq, Repr

/-- How a query ends. -/
inductive Answer where
  | response (r : Response)
  /-- there is no connection, or none any more -/
  | gone
  /-- no response came in time -/
  | late

structure Document where
  /-- a normal URL -/
  uri : String
  languageId : String
  version : Int32
  text : String

structure Client where
  language : String
  config : ClientConfig
  /-- the number of the next query -/
  nextId : Int32
  /-- the queries that wait for a response -/
  pending : List RequestId
  /-- responses that have come and are not taken yet -/
  arrived : List Response
  outbound : List Outbound
  /-- whether what is queued will still be looked at -/
  isQueueOpen : Bool
  /-- whether the server's output is still read -/
  isReading : Bool
  /-- whether the connection is gone -/
  isClosed : Bool
  /-- until when the end of the server's output is waited for -/
  drainUntil : Option Nat
  /-- whether a first request is under way -/
  isGreeting : Bool
  /-- what the server answered to the first request -/
  greeting : Option Json
  /-- the documents that the server knows to be open -/
  documents : List String
  /-- the diagnostics of each document that has some -/
  diagnostics : Table (List Json)
  /-- what the server has registered, by its identifier -/
  registrations : Table Json
  cache : ResponseCache

namespace Client

/-- A client whose connection has just been made. -/
def connect (language : String) (config : ClientConfig) : Client where
  language := language
  config := config
  nextId := 1
  pending := []
  arrived := []
  outbound := []
  isQueueOpen := true
  isReading := true
  isClosed := false
  drainUntil := none
  isGreeting := false
  greeting := none
  documents := []
  diagnostics := []
  registrations := []
  cache := .empty

/-- The error of whoever needs the connection when it is gone. -/
def gone (c : Client) : Error := .crashed c.language

/-! Messages to the server. -/

def enqueue (c : Client) (o : Outbound) : Except Error Client :=
  if c.isQueueOpen then .ok { c with outbound := c.outbound ++ [o] } else .error c.gone

def send (c : Client) (m : Message) : Except Error Client := c.enqueue (.message m)

def notify (c : Client) (method : String) (params : Json) : Except Error Client :=
  c.send (.notification ⟨method, params⟩)

def respond (c : Client) (r : Response) : Except Error Client := c.send (.response r)

/-! Queries and their responses. -/

/-- Each query has a number of its own. -/
def number (c : Client) : Int32 × Client := (c.nextId, { c with nextId := c.nextId + 1 })

def register (c : Client) (id : RequestId) : Client :=
  { c with pending := id :: c.pending.filter (· ≠ id) }

def forget (c : Client) (id : RequestId) : Client := { c with pending := c.pending.filter (· ≠ id) }

/-- Hands a response to the query that waits for it; one that nothing waits for is dropped. -/
def accept (c : Client) (r : Response) : Client :=
  if r.id ∈ c.pending then { c.forget r.id with arrived := c.arrived ++ [r] } else c

/-- Takes the response to a query, if it has come. -/
def take? (c : Client) (id : RequestId) : Option (Response × Client) :=
  (c.arrived.find? fun r => r.id = id).map fun r =>
    (r, { c with arrived := c.arrived.filter fun r => r.id ≠ id })

/-- Nobody waits for the response to a query any longer; one that came meanwhile is dropped. -/
def withdraw (c : Client) (id : RequestId) : Client :=
  { c.forget id with arrived := c.arrived.filter fun r => r.id ≠ id }

/-- Tells the server that a query was given up, if it can still be told. -/
def cancel (c : Client) (id : RequestId) : Client :=
  match c.notify "$/cancelRequest" (.obj [("id", id.toJson)]) with
  | .ok c => c
  | .error _ => c

/-- What a response says, for a query of a method with results of a shape. -/
def understand (method : String) (shape : Shape) (r : Response) : Except Error Json :=
  match r.error with
  | some e => .error (.protocol (method ++ " failed: " ++ e.message ++ " (code " ++
      toString e.code.toInt ++ ")"))
  | none =>
    match shape.read? (r.result.getD .null) with
    | some j => .ok j
    | none => .error (.protocol ("Failed to parse " ++ method ++ " response: unexpected value"))

/-- What a query comes to by its answer. -/
def outcome (c : Client) (q : Query) : Answer → Except Error Json
  | .response r => understand q.method q.result r
  | .gone => .error c.gone
  | .late => .error (.timeout (c.config.timeout / 1000))

/-! The end of the connection. -/

/-- Nothing waits any longer. -/
def release (c : Client) : Client := { c with pending := [] }

def disconnect (c : Client) : Client := { c with isClosed := true }

/-! Documents. -/

/-- Tells the server of a document, unless it knows it to be open. -/
def openDocument (c : Client) (d : Document) : Except Error (DocumentChange × Client) :=
  if d.uri ∈ c.documents then .ok (.alreadyOpen, c)
  else do
    let c ← c.notify "textDocument/didOpen" (.obj [("textDocument", .obj [("languageId", .str d.languageId),
      ("text", .str d.text), ("uri", .str d.uri), ("version", .int d.version.toInt)])])
    .ok (.opened, { c with
      cache := (c.cache.invalidateDocument d.uri).2
      documents := d.uri :: c.documents })

/-- Takes a document back; its answers and diagnostics go with it. -/
def closeDocument (c : Client) (uri : String) : Except Error (DocumentChange × Client) :=
  if uri ∈ c.documents then do
    let c ← c.notify "textDocument/didClose" (.obj [Query.document uri])
    .ok (.closed, { c with
      documents := c.documents.filter (· ≠ uri)
      cache := (c.cache.invalidateDocument uri).2
      diagnostics := c.diagnostics.erase uri })
  else .ok (.notOpen, c)

def isOpen (c : Client) (uri : String) : Bool := uri ∈ c.documents

def fileUrl (p : Path) : Except Error String :=
  match Url.ofFilePath? p with
  | some u => .ok u.text
  | none => .error (.badPath p)

/-- Opens the file at a path, its text given, as a document of the client's language. -/
def openFile (c : Client) (p : Path) (text : Except IoError String) :
    Except Error (String × Client) := do
  let uri ← fileUrl p
  match text with
  | .error e => .error (.io e)
  | .ok text =>
    let (_, c) ← c.openDocument ⟨uri, c.language, 1, text⟩
    .ok (uri, c)

/-! What the server tells. -/

/-- The diagnostics of a document take the place of those before. -/
def recordDiagnostics (c : Client) (uri : String) (list : List Json) : Client :=
  { c with diagnostics :=
      if list.isEmpty then c.diagnostics.erase uri else c.diagnostics.insert uri list }

def diagnosticsOf (c : Client) (uri : String) : List Json := (c.diagnostics.get? uri).getD []

def registerAll (c : Client) (registrations : List (String × Json)) : Client :=
  { c with registrations := c.registrations.insertAll registrations }

def unregisterAll (c : Client) (ids : List String) : Client :=
  { c with registrations := ids.foldl (fun t id => t.erase id) c.registrations }

/-! The workspace and the first request. -/

/-- A folder as the server is told of it: its URL, and its name for people. -/
def folder (p : Path) : Except Error Json := do
  .ok (.obj [("name", .str (p.fileName?.getD p.text)), ("uri", .str (← fileUrl p))])

/-- The root, and the folders that are not it. -/
def folderPaths (config : ClientConfig) : List Path :=
  config.root :: config.folders.filter fun p => !p.same config.root

/-- The folders of the workspace that have a URL. -/
def workspaceFolders (c : Client) : List Json :=
  (folderPaths c.config).filterMap fun p => (folder p).toOption

/-- What the host can do for a server. -/
def abilities : Json := .obj [
  ("window", .obj [("showDocument", .obj [("support", .bool true)]), ("workDoneProgress", .bool true)]),
  ("workspace", .obj [("applyEdit", .bool true), ("configuration", .bool true),
    ("workspaceFolders", .bool true)])]

/-- The number of the host's own process. -/
def processId : Nat := 1

/-- The first request of a session. -/
def greetingQuery (config : ClientConfig) : Except Error Query := do
  let rootUri ← fileUrl config.root
  let folders ← (folderPaths config).mapM folder
  let options := match config.initOptions with
    | some j => [("initializationOptions", j)]
    | none => []
  .ok ⟨"initialize", .obj ([("capabilities", abilities),
    ("clientInfo", .obj [("name", .str "lspm"), ("version", .str "0.1.0")])] ++ options ++
    [("processId", .int processId), ("rootUri", .str rootUri), ("workspaceFolders", .arr folders)]),
    .initializeResult⟩

/-- What the server can do, once it has said so. -/
def capabilities (c : Client) : Option Json := c.greeting.bind fun j => j.get? "capabilities"

def describe (c : Client) : String :=
  "LspClient \x7b language: " ++ Text.literal c.language ++ ", root: " ++
    Text.literal c.config.root.text ++ ", closed: " ++ (if c.isClosed then "true" else "false") ++
    ", .. \x7d"

end Client

end LanguageHost
