import LanguageHost.Protocol.Capabilities
import LanguageHost.Session.Cache

/-!
What a host asks a server: a method, parameters, and the shape that the result has to have. Answers to
queries on a whole document are kept, each under a key of its own.
-/
namespace LanguageHost

structure TextPosition where
  line : UInt32
  character : UInt32
deriving DecidableEq, Repr

structure TextRange where
  start : TextPosition
  stop : TextPosition
deriving DecidableEq, Repr

namespace TextPosition

def toJson (p : TextPosition) : Json :=
  .obj [("character", .int p.character.toNat), ("line", .int p.line.toNat)]

def ofJson? (j : Json) : Option TextPosition := do
  let r ← Json.Record.ofJson? ["line", "character"] j
  pure ⟨.ofNat (← r.required "line" (Json.nat? 32)), .ofNat (← r.required "character" (Json.nat? 32))⟩

/-- The line and the character, with a colon between. -/
def text (p : TextPosition) : String := toString p.line.toNat ++ ":" ++ toString p.character.toNat

end TextPosition

namespace TextRange

def toJson (r : TextRange) : Json := .obj [("end", r.stop.toJson), ("start", r.start.toJson)]

def ofJson? (j : Json) : Option TextRange := do
  let r ← Json.Record.ofJson? ["start", "end"] j
  pure ⟨← r.required "start" TextPosition.ofJson?, ← r.required "end" TextPosition.ofJson?⟩

def text (r : TextRange) : String := r.start.text ++ "-" ++ r.stop.text

end TextRange

structure Query where
  method : String
  params : Json
  /-- the shape of the result, where a response without one counts as null -/
  result : Shape

/-- The queries whose parameters are passed on as they are given. -/
inductive Feature where
  | completion
  | formatting
  | rangeFormatting
  | typeFormatting
  | declaration
  | hover
  | resolveLink
  | resolveHint
  | prepareCalls
  | incomingCalls
  | outgoingCalls
deriving DecidableEq, Repr

namespace Feature

def word : Feature → String
  | completion => "textDocument/completion"
  | formatting => "textDocument/formatting"
  | rangeFormatting => "textDocument/rangeFormatting"
  | typeFormatting => "textDocument/onTypeFormatting"
  | declaration => "textDocument/declaration"
  | hover => "textDocument/hover"
  | resolveLink => "documentLink/resolve"
  | resolveHint => "inlayHint/resolve"
  | prepareCalls => "textDocument/prepareCallHierarchy"
  | incomingCalls => "callHierarchy/incomingCalls"
  | outgoingCalls => "callHierarchy/outgoingCalls"

/-- What the query is asked with. -/
def subject : Feature → Shape
  | completion => .completionParams
  | formatting => .formattingParams
  | rangeFormatting => .rangeFormattingParams
  | typeFormatting => .typeFormattingParams
  | declaration => .placeParams
  | hover | prepareCalls => .wholePlaceParams
  | resolveLink => .documentLink
  | resolveHint => .inlayHint
  | incomingCalls | outgoingCalls => .callItem

def result : Feature → Shape
  | completion => .nullable .completion
  | formatting | rangeFormatting | typeFormatting => .nullable (.list .textEdit)
  | declaration => .nullable .places
  | hover => .nullable .hover
  | resolveLink => .documentLink
  | resolveHint => .inlayHint
  | prepareCalls => .nullable (.list .callItem)
  | incomingCalls => .nullable (.list .incomingCall)
  | outgoingCalls => .nullable (.list .outgoingCall)

/-- The parameters of the query; calls are asked for by their item. -/
def params (f : Feature) (subject : Json) : Json :=
  match f with
  | incomingCalls | outgoingCalls => .obj [("item", subject)]
  | _ => subject

end Feature

namespace Query

/-- The query of a feature, if its subject has the shape for it. -/
def ofFeature? (f : Feature) (subject : Json) : Option Query :=
  (f.subject.read? subject).map fun j => ⟨f.word, f.params j, f.result⟩

/-- A document as it is named in parameters. -/
def document (uri : String) : String × Json := ("textDocument", .obj [("uri", .str uri)])

/-- Asks the server to get ready to end; there is nothing to tell in return. -/
def shutdown : Query := ⟨"shutdown", .null, .nullable (.choice [])⟩

end Query

/-- A query whose answer is kept under a key. -/
structure CachedQuery where
  key : CacheKey
  type : ValueType
  query : Query

namespace CachedQuery

def make (key : CacheKey) (type : ValueType) (method : String) (params : Json) : CachedQuery :=
  ⟨key, type, ⟨method, params, type.shape⟩⟩

def symbols (uri : String) : CachedQuery :=
  make ⟨uri, .symbols, none⟩ .symbols "textDocument/documentSymbol" (.obj [Query.document uri])

def colors (uri : String) : CachedQuery :=
  make ⟨uri, .colors, none⟩ .colors "textDocument/documentColor" (.obj [Query.document uri])

def links (uri : String) : CachedQuery :=
  make ⟨uri, .links, none⟩ .links "textDocument/documentLink" (.obj [Query.document uri])

/-- Queries for hints are told apart by their ranges. -/
def hints (uri : String) (range : TextRange) : CachedQuery :=
  make ⟨uri, .hints, some range.text⟩ .hints "textDocument/inlayHint"
    (.obj [("range", range.toJson), Query.document uri])

end CachedQuery

end LanguageHost
