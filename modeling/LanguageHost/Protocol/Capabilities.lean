import LanguageHost.Protocol.Types

/-!
What a server can do, as it says when it is initialized. Where a server may give either a switch or
options, the first alternative that fits is meant.
-/
namespace LanguageHost.Shape

def progressSwitch : Fields := [may "workDoneProgress" .bool]

/-- Options that tell nothing but whether progress is reported, and these. -/
def options (fields : Fields) : Shape := .object (fields ++ progressSwitch) none

def switchOr (s : Shape) : Shape := .choice [.bool, s]

def documentFilters : Shape :=
  .list (.record [may "language" .text, may "scheme" .text, may "pattern" .text])

def selectorOptions : Shape :=
  .record [mayNull "documentSelector" documentFilters, may "id" .text]

def syncOptions : Shape := .record [may "openClose" .bool, may "change" int32,
  may "willSave" .bool, may "willSaveWaitUntil" .bool,
  may "save" (switchOr (.record [may "includeText" .bool]))]

def completionOptions : Shape := options [may "resolveProvider" .bool,
  may "triggerCharacters" texts, may "allCommitCharacters" texts,
  may "completionItem" (.record [may "labelDetailsSupport" .bool])]

def fileFilters : Shape := .record [need "filters" (.list (.record [may "scheme" .text,
  need "pattern" (.record [need "glob" .text, may "matches" (.word ["file", "folder"]),
    may "options" (.record [may "ignoreCase" .bool])])]))]

def workspaceOptions : Shape := .record [
  may "workspaceFolders" (.record [may "supported" .bool,
    may "changeNotifications" (switchOr .text)]),
  may "fileOperations" (.record [may "didCreate" fileFilters, may "willCreate" fileFilters,
    may "didRename" fileFilters, may "willRename" fileFilters, may "didDelete" fileFilters,
    may "willDelete" fileFilters])]

def tokenOptions : Shape := options [
  need "legend" (.record [need "tokenTypes" texts, need "tokenModifiers" texts]),
  may "range" .bool, may "full" (switchOr (.record [may "delta" .bool]))]

def serverCapabilities : Shape := .record [
  may "positionEncoding" .text,
  may "textDocumentSync" (.choice [int32, syncOptions]),
  may "selectionRangeProvider" (switchOr (options [])),
  may "hoverProvider" (switchOr (options [])),
  may "completionProvider" completionOptions,
  may "signatureHelpProvider"
    (options [may "triggerCharacters" texts, may "retriggerCharacters" texts]),
  may "definitionProvider" (switchOr (options [])),
  may "typeDefinitionProvider" (switchOr selectorOptions),
  may "implementationProvider" (switchOr selectorOptions),
  may "referencesProvider" (switchOr (options [])),
  may "documentHighlightProvider" (switchOr (options [])),
  may "documentSymbolProvider" (switchOr (options [may "label" .text])),
  may "workspaceSymbolProvider" (switchOr (options [may "resolveProvider" .bool])),
  may "codeActionProvider"
    (switchOr (options [may "codeActionKinds" texts, may "resolveProvider" .bool])),
  may "codeLensProvider" (.record [may "resolveProvider" .bool]),
  may "documentFormattingProvider" (switchOr (options [])),
  may "documentRangeFormattingProvider" (switchOr (options [])),
  may "documentOnTypeFormattingProvider"
    (.record [need "firstTriggerCharacter" .text, may "moreTriggerCharacter" texts]),
  may "renameProvider" (switchOr (options [may "prepareProvider" .bool])),
  may "documentLinkProvider" (options [may "resolveProvider" .bool]),
  may "colorProvider" (.choice [.bool, .record [], selectorOptions]),
  may "foldingRangeProvider" (.choice [.bool, .record [], selectorOptions]),
  may "declarationProvider" (.choice [.bool,
    options [mayNull "documentSelector" documentFilters, may "id" .text], options []]),
  may "executeCommandProvider" (options [need "commands" texts]),
  may "workspace" workspaceOptions,
  may "callHierarchyProvider" (switchOr (options [])),
  may "semanticTokensProvider" tokenOptions,
  may "monikerProvider" (switchOr (options [])),
  may "linkedEditingRangeProvider" (switchOr (options [])),
  may "inlineValueProvider" (switchOr (options [])),
  may "inlayHintProvider" (switchOr (options [may "resolveProvider" .bool])),
  may "diagnosticProvider" (options [may "identifier" .text, need "interFileDependencies" .bool,
    need "workspaceDiagnostics" .bool]),
  may "experimental" .any]

/-- The answer to the first request of a session. -/
def initializeResult : Shape := .record [need "capabilities" serverCapabilities,
  may "serverInfo" (.record [need "name" .text, may "version" .text])]

end LanguageHost.Shape
