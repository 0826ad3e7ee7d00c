import LanguageHost.Protocol.Shape

/-!
The shapes of the values that the protocol passes: places in text, edits, what servers ask for and tell,
and the results of queries. Kinds, severities and tags are open integers.
-/
namespace LanguageHost.Shape

/-- A field that has to be there. -/
def need (name : String) (s : Shape) : String × Presence × Shape := (name, .required, s)

/-- A field that may be absent. -/
def may (name : String) (s : Shape) : String × Presence × Shape := (name, .optional, s)

/-- A field that is written as null when it is absent. -/
def mayNull (name : String) (s : Shape) : String × Presence × Shape := (name, .nullable, s)

def int32 : Shape := .int (-0x80000000) 0x7fffffff

def uint32 : Shape := .int 0 0xffffffff

/-- An identifier or token. -/
def intOrText : Shape := .choice [int32, .text]

def texts : Shape := .list .text

def position : Shape := .record [need "line" uint32, need "character" uint32]

def range : Shape := .record [need "start" position, need "end" position]

def location : Shape := .record [need "uri" .url, need "range" range]

def locationLink : Shape := .record [may "originSelectionRange" range, need "targetUri" .url,
  need "targetRange" range, need "targetSelectionRange" range]

def command : Shape := .record [need "title" .text, need "command" .text,
  may "arguments" (.list .any)]

def markup : Shape := .record [need "kind" (.word ["plaintext", "markdown"]), need "value" .text]

def textOrMarkup : Shape := .choice [.text, markup]

/-! Edits. -/

def textEdit : Shape := .record [need "range" range, need "newText" .text]

def versionedDocument : Shape := .record [need "uri" .url, mayNull "version" int32]

def documentEdit : Shape := .record [need "textDocument" versionedDocument,
  need "edits" (.list textEdit)]

def creationOptions : Shape := .record [may "overwrite" .bool, may "ignoreIfExists" .bool]

def deletionOptions : Shape := .record [may "recursive" .bool, may "ignoreIfNotExists" .bool,
  may "annotationId" .text]

/-- A file that is made, renamed or deleted. -/
def fileOperation : Shape := .tagged "kind" [
  ("create", [need "uri" .url, may "options" creationOptions, may "annotationId" .text]),
  ("rename", [need "oldUri" .url, need "newUri" .url, may "options" creationOptions,
    may "annotationId" .text]),
  ("delete", [need "uri" .url, may "options" deletionOptions])]

def changeAnnotation : Shape := .record [need "label" .text, may "needsConfirmation" .bool,
  may "description" .text]

def workspaceEdit : Shape := .record [
  may "changes" (.table true (.list textEdit)),
  may "documentChanges" (.choice [.list documentEdit,
    .list (.choice [fileOperation, documentEdit])]),
  may "changeAnnotations" (.table false changeAnnotation)]

/-! What servers ask for. -/

def configurationParams : Shape := .record [
  need "items" (.list (.record [may "scopeUri" .url, may "section" .text]))]

def applyEditParams : Shape := .record [may "label" .text, need "edit" workspaceEdit]

def registration : Shape := .record [need "id" .text, need "method" .text,
  may "registerOptions" .any]

def registrationParams : Shape := .record [need "registrations" (.list registration)]

def unregistrationParams : Shape := .record [
  need "unregisterations" (.list (.record [need "id" .text, need "method" .text]))]

def messageRequestParams : Shape := .record [need "type" int32, need "message" .text,
  may "actions" (.list (.object [need "title" .text] (some .any)))]

def showDocumentParams : Shape := .record [need "uri" .url, may "external" .bool,
  may "takeFocus" .bool, may "selection" range]

def createProgressParams : Shape := .record [need "token" intOrText]

/-! What servers tell. -/

def messageParams : Shape := .record [need "type" int32, need "message" .text]

def diagnostic : Shape := .record [need "range" range, may "severity" int32, may "code" intOrText,
  may "codeDescription" (.record [need "href" .url]), may "source" .text, need "message" .text,
  may "relatedInformation" (.list (.record [need "location" location, need "message" .text])),
  may "tags" (.list int32), may "data" .any]

def diagnosticsParams : Shape := .record [need "uri" .url, need "diagnostics" (.list diagnostic),
  may "version" int32]

def cancelParams : Shape := .record [need "id" intOrText]

def progressParams : Shape := .record [need "token" intOrText,
  need "value" (.tagged "kind" [
    ("begin", [need "title" .text, may "cancellable" .bool, may "message" .text,
      may "percentage" uint32]),
    ("report", [may "cancellable" .bool, may "message" .text, may "percentage" uint32]),
    ("end", [may "message" .text])])]

def traceParams : Shape := .record [need "message" .text, may "verbose" .text]

/-! Results of queries. -/

def symbolInformation : Shape := .record [need "name" .text, need "kind" int32,
  may "tags" (.list int32), may "deprecated" .bool, need "location" location,
  may "containerName" .text]

/-- A symbol with those inside it. -/
def documentSymbol : Shape := .loop (.record [need "name" .text, may "detail" .text,
  need "kind" int32, may "tags" (.list int32), may "deprecated" .bool, need "range" range,
  need "selectionRange" range, may "children" (.list .again)])

def color : Shape := .record [need "red" .single, need "green" .single, need "blue" .single,
  need "alpha" .single]

def colorInformation : Shape := .record [need "range" range, need "color" color]

def documentLink : Shape := .record [need "range" range, may "target" .url, may "tooltip" .text,
  may "data" .any]

def hintPart : Shape := .record [need "value" .text, may "tooltip" textOrMarkup,
  may "location" location, may "command" command]

def inlayHint : Shape := .record [need "position" position,
  need "label" (.choice [.text, .list hintPart]), may "kind" int32,
  may "textEdits" (.list textEdit), may "tooltip" textOrMarkup, may "paddingLeft" .bool,
  may "paddingRight" .bool, may "data" .any]

def completionItem : Shape := .record [need "label" .text,
  may "labelDetails" (.record [may "detail" .text, may "description" .text]),
  may "kind" int32, may "detail" .text, may "documentation" textOrMarkup,
  may "deprecated" .bool, may "preselect" .bool, may "sortText" .text, may "filterText" .text,
  may "insertText" .text, may "insertTextFormat" int32, may "insertTextMode" int32,
  may "textEdit" (.choice [textEdit,
    .record [need "newText" .text, need "insert" range, need "replace" range]]),
  may "additionalTextEdits" (.list textEdit), may "command" command, may "commitCharacters" texts,
  may "data" .any, may "tags" (.list int32)]

def completion : Shape := .choice [.list completionItem,
  .record [need "isIncomplete" .bool, need "items" (.list completionItem)]]

def markedString : Shape := .choice [.text, .record [need "language" .text, need "value" .text]]

def hover : Shape := .record [need "contents" (.choice [markedString, .list markedString, markup]),
  may "range" range]

def places : Shape := .choice [location, .list location, .list locationLink]

def callItem : Shape := .record [need "name" .text, need "kind" int32, may "tags" (.list int32),
  may "detail" .text, need "uri" .url, need "range" range, need "selectionRange" range,
  may "data" .any]

def incomingCall : Shape := .record [need "from" callItem, need "fromRanges" (.list range)]

def outgoingCall : Shape := .record [need "to" callItem, need "fromRanges" (.list range)]

/-! What queries are asked with. -/

def documentId : Shape := .record [need "uri" .url]

/-- A place in a document. -/
def placeFields : Fields := [need "textDocument" documentId, need "position" position]

def progressField : Fields := [may "workDoneToken" intOrText]

def partialFields : Fields := progressField ++ [may "partialResultToken" intOrText]

def placeParams : Shape := .object (placeFields ++ partialFields) none

/-- A place, for queries whose results come in one piece. -/
def wholePlaceParams : Shape := .object (placeFields ++ progressField) none

def completionParams : Shape := .object (placeFields ++ partialFields ++
  [may "context" (.record [need "triggerKind" int32, may "triggerCharacter" .text])]) none

def formattingOptions : Shape := .object [need "tabSize" uint32, need "insertSpaces" .bool,
  may "trimTrailingWhitespace" .bool, may "insertFinalNewline" .bool,
  may "trimFinalNewlines" .bool] (some (.choice [.bool, int32, .text]))

def formattingParams : Shape := .object ([need "textDocument" documentId,
  need "options" formattingOptions] ++ progressField) none

def rangeFormattingParams : Shape := .object ([need "textDocument" documentId, need "range" range,
  need "options" formattingOptions] ++ progressField) none

def typeFormattingParams : Shape := .object (placeFields ++ [need "ch" .text,
  need "options" formattingOptions]) none

end LanguageHost.Shape
