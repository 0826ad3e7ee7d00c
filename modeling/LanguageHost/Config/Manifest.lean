import LanguageHost.Binary
import LanguageHost.Config.User
import LanguageHost.Json.Parser
import LanguageHost.Json.Printer
import LanguageHost.Machine.Program

/-!
The manifest of installed servers, and the launch configuration of a language: what is installed for it
under what the user sets. The manifest is written to a file beside it first, so that no half of one is
ever read, and memory follows only once the file is in place.
-/
namespace LanguageHost

structure InstalledServer where
  package : String
  version : String
  installDate : String
  binary : ServerBinary
  /-- the label of the install method -/
  method : String
  enabled : Bool
deriving DecidableEq, Repr

/-- The installed servers by language. -/
abbrev Manifest := Table InstalledServer

namespace Manifest

def binaryFields : List (String × Json.Wanted) :=
  [("path", .whole), ("args", .whole), ("env", .whole)]

def serverFields : List (String × Json.Wanted) :=
  [("package", .whole), ("version", .whole), ("install_date", .whole), ("binary", .fields binaryFields),
    ("install_method", .whole), ("enabled", .whole)]

def fields : List (String × Json.Wanted) := [("servers", .each (.fields serverFields))]

def binaryOfJson? (j : Json) : Option ServerBinary := do
  let r ← Json.Record.ofJson? (binaryFields.map Prod.fst) j
  pure ⟨← r.required "path" UserConfig.path?, ← r.defaulted "args" [] (Json.list? Json.str?),
    ← r.defaulted "env" [] (Json.table? Json.str?)⟩

def serverOfJson? (j : Json) : Option InstalledServer := do
  let r ← Json.Record.ofJson? (serverFields.map Prod.fst) j
  pure ⟨← r.required "package" Json.str?, ← r.required "version" Json.str?,
    ← r.required "install_date" Json.str?, ← r.required "binary" binaryOfJson?,
    ← r.required "install_method" Json.str?, ← r.required "enabled" Json.bool?⟩

def ofJson? (j : Json) : Option Manifest := do
  (← Json.Record.ofJson? (fields.map Prod.fst) j).required "servers" (Json.table? serverOfJson?)

/-- The manifest that a text writes. Members that no manifest has need only be well formed. -/
def ofText? (text : String) : Option Manifest := (Json.read? (.fields fields) text.toList).bind ofJson?

def binaryToJson (b : ServerBinary) : Json :=
  .obj [("path", .str b.path.text), ("args", Json.ofStrings b.args), ("env", Json.ofStringTable b.env)]

def serverToJson (s : InstalledServer) : Json :=
  .obj [("package", .str s.package), ("version", .str s.version),
    ("install_date", .str s.installDate), ("binary", binaryToJson s.binary),
    ("install_method", .str s.method), ("enabled", .bool s.enabled)]

def toJson (m : Manifest) : Json :=
  .obj [("servers", .obj (m.map fun (language, s) => (language, serverToJson s)))]

/-- Beside a path the one that is written first. -/
def draftPath (p : Path) : Path := p.withExtension "json.tmp"

/-- How manifests are written and read. One that has no text, as with a path that is not UTF-8, is
refused. -/
structure Format where
  write : Manifest → Except Error String
  read? : String → Option Manifest

/-- Indented JSON. -/
def json : Format where
  write m := .ok ((toJson m).pretty 0)
  read? := ofText?

/-- Puts a text in the place of a file. -/
def publish (p : Path) (text : String) : Program.Fallible Unit := do
  match p.parent? with
  | some dir => Program.io (.makeDirs dir)
  | none => pure ()
  Program.io (Program.writeText (draftPath p) text)
  Program.io (.rename (draftPath p) p)

def save (format : Format) (p : Path) (m : Manifest) : Program.Fallible Unit :=
  match format.write m with
  | .error e => throw e
  | .ok text => publish p text

end Manifest

/-- How a language's server is launched and what it is told. -/
structure LaunchConfig where
  binary : ServerBinary
  enabled : Bool
  initOptions : Option Json
  settings : Option Json
deriving Repr

def LaunchConfig.toJson (c : LaunchConfig) : Json :=
  .obj [("binary", Manifest.binaryToJson c.binary), ("enabled", .bool c.enabled),
    ("initialization_options", Json.ofOption id c.initOptions),
    ("settings", Json.ofOption id c.settings)]

structure ServerConfigs where
  format : Manifest.Format
  path : Path
  installed : Manifest
  overrides : Table ServerOverride

namespace ServerConfigs

/-- The manifest at a path. One that is missing, or is no manifest, counts as empty. -/
def loadAs (format : Manifest.Format) (path : Path) (user : UserConfig) :
    Program.Fallible ServerConfigs := do
  if ← ExceptT.lift (Program.exists? path) then
    match ← ExceptT.lift (Program.readText path) with
    | .error e => throw (.io e)
    | .ok text => pure ⟨format, path, (format.read? text).getD [], user.servers⟩
  else pure ⟨format, path, [], user.servers⟩

def load (path : Path) (user : UserConfig) : Program.Fallible ServerConfigs :=
  loadAs Manifest.json path user

/-- The launch configuration of a language. A command that the user sets takes the place of the whole
installed binary; arguments and each variable that the user sets stand above its own. -/
def get? (c : ServerConfigs) (language : String) : Option LaunchConfig := do
  let installed := c.installed.get? language
  let user := c.overrides.get? language
  let binary ← match user.bind (·.command), installed with
    | some command, _ => some (ServerBinary.ofPath command)
    | none, some server => some server.binary
    | none, none => none
  pure {
    binary := { binary with
      args := (user.bind (·.args)).getD binary.args
      env := binary.env.insertAll ((user.map (·.env)).getD []) }
    enabled := (user.bind (·.enabled)).getD ((installed.map (·.enabled)).getD true)
    initOptions := user.bind (·.initOptions)
    settings := user.bind (·.settings) }

/-- Takes over a manifest once it is written. -/
def adopt (c : ServerConfigs) (m : Manifest) : Program.Fallible ServerConfigs := do
  Manifest.save c.format c.path m
  pure { c with installed := m }

/-- Enters servers, all of them or none. -/
def registerAll (c : ServerConfigs) (entries : List (String × InstalledServer)) :
    Program.Fallible ServerConfigs :=
  c.adopt (c.installed.insertAll entries)

def register (c : ServerConfigs) (language : String) (server : InstalledServer) :
    Program.Fallible ServerConfigs :=
  c.registerAll [(language, server)]

/-- Enables or disables an installed server; none when there is none. -/
def setEnabled (c : ServerConfigs) (language : String) (enabled : Bool) :
    Program.Fallible (Option ServerConfigs) := do
  match c.installed.get? language with
  | none => pure none
  | some server => some <$> c.adopt (c.installed.insert language { server with enabled := enabled })

end ServerConfigs

end LanguageHost
