import LanguageHost.Protocol.Message
import LanguageHost.Protocol.Types

/-!
What a server may send of its own accord: the requests and notifications that the host knows, and the
shape of the parameters of each.
-/
namespace LanguageHost

inductive ServerMethod where
  | configuration
  | folders
  | applyEdit
  | register
  | unregister
  | refreshLenses
  | refreshTokens
  | askMessage
  | showDocument
  | createProgress
deriving DecidableEq, Repr

namespace ServerMethod

def all : List ServerMethod := [configuration, folders, applyEdit, register, unregister,
  refreshLenses, refreshTokens, askMessage, showDocument, createProgress]

def word : ServerMethod → String
  | configuration => "workspace/configuration"
  | folders => "workspace/workspaceFolders"
  | applyEdit => "workspace/applyEdit"
  | register => "client/registerCapability"
  | unregister => "client/unregisterCapability"
  | refreshLenses => "workspace/codeLens/refresh"
  | refreshTokens => "workspace/semanticTokens/refresh"
  | askMessage => "window/showMessageRequest"
  | showDocument => "window/showDocument"
  | createProgress => "window/workDoneProgress/create"

/-- The parameters of a method; it may have none. -/
def shape? : ServerMethod → Option Shape
  | configuration => some .configurationParams
  | applyEdit => some .applyEditParams
  | register => some .registrationParams
  | unregister => some .unregistrationParams
  | askMessage => some .messageRequestParams
  | showDocument => some .showDocumentParams
  | createProgress => some .createProgressParams
  | folders | refreshLenses | refreshTokens => none

end ServerMethod

inductive NoticeMethod where
  | log
  | message
  | diagnostics
  | telemetry
  | cancel
  | progress
  | trace
deriving DecidableEq, Repr

namespace NoticeMethod

def all : List NoticeMethod := [log, message, diagnostics, telemetry, cancel, progress, trace]

def word : NoticeMethod → String
  | log => "window/logMessage"
  | message => "window/showMessage"
  | diagnostics => "textDocument/publishDiagnostics"
  | telemetry => "telemetry/event"
  | cancel => "$/cancelRequest"
  | progress => "$/progress"
  | trace => "$/logTrace"

def shape : NoticeMethod → Shape
  | log | message => .messageParams
  | diagnostics => .diagnosticsParams
  | telemetry => .any
  | cancel => .cancelParams
  | progress => .progressParams
  | trace => .traceParams

end NoticeMethod

/-- How something that a server sends is understood: its method, and its parameters as the method
shapes them. -/
inductive Understood (μ : Type) where
  /-- the method is not known -/
  | unsupported
  /-- the parameters do not fit the method -/
  | malformed
  | known (method : μ) (params : Json)

/-- Parameters that a method does not take are ignored. -/
def ServerMethod.understand (method : String) (params : Json) : Understood ServerMethod :=
  match all.find? fun m => m.word == method with
  | none => .unsupported
  | some m =>
    match m.shape? with
    | none => .known m .null
    | some s =>
      match s.read? params with
      | some j => .known m j
      | none => .malformed

def NoticeMethod.understand (method : String) (params : Json) : Understood NoticeMethod :=
  match all.find? fun m => m.word == method with
  | none => .unsupported
  | some m =>
    match m.shape.read? params with
    | some j => .known m j
    | none => .malformed

end LanguageHost
