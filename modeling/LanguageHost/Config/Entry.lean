import LanguageHost.Json.Record
import LanguageHost.Package.Method
import LanguageHost.Toml.Document

/-!
Registry entries: one installable language server each.
-/
namespace LanguageHost

structure Executables where
  /-- the template of the one that is the server -/
  primary : String
  additional : List String
  args : List String
deriving DecidableEq, Repr

structure RegistryEntry where
  name : String
  description : String
  homepage : Option String
  licenses : List String
  languages : List String
  extensions : List String
  source : PackageOrigin
  executables : Executables
  initOptions : Option Json
deriving Repr

namespace RegistryEntry

/-- The language under which the entry is found first: its own first one, or its name. -/
def primaryLanguage (e : RegistryEntry) : String := e.languages.headD e.name

def method (e : RegistryEntry) (platform : Platform) : InstallMethod := e.source.method platform

def strings? : Json → Option (List String) := Json.list? Json.str?

def originOfJson? (j : Json) : Option PackageOrigin := do
  let r ← Json.Record.ofLoose? ["id", "asset", "build"] j
  let one (name : String) (j : Json) : Option String := do
    (← Json.Record.ofLoose? [name] j).required name Json.str?
  pure ⟨← r.required "id" Json.str?, ← r.optional "asset" (one "file"),
    ← r.optional "build" (one "command")⟩

def executablesOfJson? (j : Json) : Option Executables := do
  let r ← Json.Record.ofLoose? ["primary", "additional", "lsp_args"] j
  pure ⟨← r.required "primary" Json.str?, ← r.defaulted "additional" [] strings?,
    ← r.defaulted "lsp_args" [] strings?⟩

def ofJson? (j : Json) : Option RegistryEntry := do
  let r ← Json.Record.ofLoose? ["name", "description", "homepage", "licenses", "languages",
    "file_extensions", "source", "bin", "initialization_options"] j
  pure {
    name := ← r.required "name" Json.str?
    description := ← r.required "description" Json.str?
    homepage := ← r.optional "homepage" Json.str?
    licenses := ← r.defaulted "licenses" [] strings?
    languages := ← r.required "languages" strings?
    extensions := ← r.defaulted "file_extensions" [] strings?
    source := ← r.required "source" originOfJson?
    executables := ← r.required "bin" executablesOfJson?
    initOptions := ← r.optional "initialization_options" Json.free? }

def ofToml? (text : String) : Option RegistryEntry := (Toml.ofText? text).bind ofJson?

def originToJson (o : PackageOrigin) : Json :=
  Json.object [("id", .str o.id),
    ("asset", Json.ofOption (fun f => Json.object [("file", .str f)]) o.asset),
    ("build", Json.ofOption (fun c => Json.object [("command", .str c)]) o.build)]

def toJson (e : RegistryEntry) : Json :=
  Json.object [
    ("name", .str e.name),
    ("description", .str e.description),
    ("homepage", Json.ofOption .str e.homepage),
    ("licenses", Json.ofStrings e.licenses),
    ("languages", Json.ofStrings e.languages),
    ("file_extensions", Json.ofStrings e.extensions),
    ("source", originToJson e.source),
    ("bin", Json.object [("primary", .str e.executables.primary),
      ("additional", Json.ofStrings e.executables.additional),
      ("lsp_args", Json.ofStrings e.executables.args)]),
    ("initialization_options", Json.ofOption id e.initOptions)]

end RegistryEntry

end LanguageHost
