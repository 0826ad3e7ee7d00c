import LanguageHost.Json.Record
import LanguageHost.Path
import LanguageHost.Toml.Document

/-!
The user's configuration: settings of the host, servers set by hand, and the packages preferred for
languages.
-/
namespace LanguageHost

/-- What happens when a server is started for a language that has one. -/
inductive StartPolicy where
  | reject | replace
deriving DecidableEq, Inhabited, Repr

namespace StartPolicy

def word : StartPolicy → String
  | .reject => "reject"
  | .replace => "replace"

def ofWord? : String → Option StartPolicy
  | "reject" => some .reject
  | "replace" => some .replace
  | _ => none

/-- A policy is written as its word, or as the one key of a table, over an empty table or array. -/
def ofJson? : Json → Option StartPolicy
  | .str s => ofWord? s
  | .obj [(s, .obj [])] => ofWord? s
  | .obj [(s, .arr [])] => ofWord? s
  | _ => none

end StartPolicy

structure Settings where
  dataDir : Option Path
  requestTimeout : Option Nat
  startPolicy : Option StartPolicy
deriving Repr

/-- What the user sets for one language's server; each field that is there stands above the installed
server's own. -/
structure ServerOverride where
  enabled : Option Bool
  command : Option Path
  args : Option (List String)
  env : Table String
  initOptions : Option Json
  settings : Option Json
deriving Repr

structure UserConfig where
  settings : Settings
  servers : Table ServerOverride
  /-- for a language the name of the package that serves it -/
  preferred : Table String
deriving Repr

namespace UserConfig

def noSettings : Settings := ⟨none, none, none⟩

def empty : UserConfig := ⟨noSettings, [], []⟩

instance : Inhabited UserConfig := ⟨empty⟩

def path? (j : Json) : Option Path := j.str?.map Path.mk

def settingsOfJson? (j : Json) : Option Settings := do
  let r ← Json.Record.ofLoose? ["data_dir", "request_timeout_secs", "start_policy"] j
  pure ⟨← r.optional "data_dir" path?, ← r.optional "request_timeout_secs" (Json.nat? 64),
    ← r.optional "start_policy" StartPolicy.ofJson?⟩

def overrideOfJson? (j : Json) : Option ServerOverride := do
  let r ← Json.Record.ofLoose? ["enabled", "command", "args", "env", "initialization_options",
    "settings"] j
  pure {
    enabled := ← r.optional "enabled" Json.bool?
    command := ← r.optional "command" path?
    args := ← r.optional "args" (Json.list? Json.str?)
    env := ← r.defaulted "env" [] (Json.table? Json.str?)
    initOptions := ← r.optional "initialization_options" Json.free?
    settings := ← r.optional "settings" Json.free? }

def ofJson? (j : Json) : Option UserConfig := do
  let r ← Json.Record.ofLoose? ["settings", "servers", "language_overrides"] j
  pure ⟨← r.defaulted "settings" noSettings settingsOfJson?,
    ← r.defaulted "servers" [] (Json.table? overrideOfJson?),
    ← r.defaulted "language_overrides" [] (Json.table? Json.str?)⟩

def ofToml? (text : String) : Option UserConfig := (Toml.ofText? text).bind ofJson?

def pathToJson (p : Path) : Json := .str p.text

def settingsToJson (s : Settings) : Json :=
  Json.object [("data_dir", Json.ofOption pathToJson s.dataDir),
    ("request_timeout_secs", Json.ofOption (fun n => .int n) s.requestTimeout),
    ("start_policy", Json.ofOption (fun p => .str p.word) s.startPolicy)]

def overrideToJson (o : ServerOverride) : Json :=
  Json.object [("enabled", Json.ofOption .bool o.enabled),
    ("command", Json.ofOption pathToJson o.command),
    ("args", Json.ofOption Json.ofStrings o.args),
    ("env", Json.ofStringTable o.env),
    ("initialization_options", Json.ofOption id o.initOptions),
    ("settings", Json.ofOption id o.settings)]

def toJson (c : UserConfig) : Json :=
  Json.object [("settings", settingsToJson c.settings),
    ("servers", .obj (c.servers.map fun (k, o) => (k, overrideToJson o))),
    ("language_overrides", Json.ofStringTable c.preferred)]

end UserConfig

end LanguageHost
