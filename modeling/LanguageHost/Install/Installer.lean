import LanguageHost.Config.Manifest
import LanguageHost.Config.Entry
import LanguageHost.Install.Npm
import LanguageHost.Install.Cargo
import LanguageHost.Install.Pip
import LanguageHost.Install.Gem
import LanguageHost.Install.Golang
import LanguageHost.Install.Release
import LanguageHost.Install.Checkout

/-!
Installing a registry entry. An install that is there is set aside first; it comes back when the attempt
fails, and goes when the new one is registered. One installer runs one install at a time.
-/
namespace LanguageHost

/-- The backend that an install method calls for. -/
def Backend.ofMethod (m : InstallMethod) (dir : Path) : Except Error Backend :=
  match m with
  | .package p =>
    match p.ecosystem with
    | .npm => .ok (Npm.backend dir)
    | .cargo => .ok (Cargo.backend dir)
    | .pypi => .ok (Pip.backend dir)
    | .gem => .ok (Gem.backend dir)
    | .golang => .ok (Golang.backend dir)
    | .github => .error (.unsupportedSource p.id)
  | .binaryDownload _ _ => .ok (Release.backend dir)
  | .sourceBuild _ _ => .ok (Checkout.backend dir)
  | .unknown => .error (.unsupportedSource "unrecognized package")

namespace Install

def place (servers : Path) (e : RegistryEntry) : Path := servers / e.name

/-- Where the install that was there before is kept meanwhile. -/
def asidePlace (servers : Path) (e : RegistryEntry) : Path := servers / ("." ++ e.name ++ ".previous")

/-- Moves an install out of the way; the answer is whether there was one. A copy that an abandoned
attempt has left is brought back first, unless something stands in its place. -/
def setAside (dir aside : Path) : Installing Bool := do
  if ← Installing.exists? aside then
    if ← Installing.exists? dir then Installing.remove aside
    else Installing.io (.rename aside dir)
  if ← Installing.exists? dir then
    Installing.io (.rename dir aside)
    pure true
  else pure false

/-- Prepares, installs and verifies; the answer is how to launch the result. -/
def perform (b : Backend) (e : RegistryEntry) (m : InstallMethod) (version : String)
    (platform : Platform) : Installing ServerBinary := do
  Installing.update (·.enter .preparing 10)
  b.prepare
  Installing.update (·.enter .installing 30)
  b.install m
  Installing.update (·.enter .verifying 95)
  match platform.expand e.executables.primary version with
  | .error reason => Installing.fail (.installFailed e.name reason.message)
  | .ok primary =>
    let path := b.binaryPath primary
    if ← Installing.exists? path then
      pure { ServerBinary.ofPath path with args := e.executables.args, env := b.binaryEnv }
    else Installing.fail (.installFailed e.name ("binary " ++ path.text ++ " was not produced"))

def registeredLanguages (e : RegistryEntry) : List String :=
  if e.languages.isEmpty then [e.name] else e.languages

/-- Registers an install under every language of its entry at once. -/
def register (configs : ServerConfigs) (e : RegistryEntry) (m : InstallMethod) (version : String)
    (b : ServerBinary) : Program.Fallible ServerConfigs := do
  let date ← ExceptT.lift (Program.ask .now)
  configs.registerAll ((registeredLanguages e).map fun language =>
    (language, ⟨e.name, version, date, b, m.label, true⟩))

/-- Removes what a failed attempt has produced and brings back what was there before. -/
def rollback (b : Backend) (dir : Path) (aside : Option Path) : Installing Unit := do
  tryCatch b.cleanup fun _ => pure ()
  match ← Installing.lift (removePath dir) with
  | .error _ => pure ()
  | .ok () =>
    match aside with
    | none => pure ()
    | some previous => discard (Installing.lift (Program.ask (.rename previous dir)))

/-- What an install will do, as far as the entry alone decides it. -/
structure Plan where
  method : InstallMethod
  source : Package
  backend : Backend

def plan (servers : Path) (e : RegistryEntry) (platform : Platform) : Except Error Plan :=
  let m := e.method platform
  match m.source? with
  | none => .error (.unsupportedSource e.source.id)
  | some source =>
    match Backend.ofMethod m (place servers e) with
    | .ok b => .ok ⟨m, source, b⟩
    | .error error => .error error

/-- The attempt itself. One that ends well but was cancelled meanwhile counts as cancelled. -/
def attempt (configs : ServerConfigs) (e : RegistryEntry) (p : Plan) (platform : Platform) :
    Installing (ServerBinary × ServerConfigs) := do
  let binary ← perform p.backend e p.method p.source.version platform
  if ← Installing.lift (Program.ask .cancelled) then Installing.fail .cancelled
  else
    let configs ← Installing.ofExcept
      (← Installing.lift (register configs e p.method p.source.version binary).run)
    pure (binary, configs)

def run (servers : Path) (configs : ServerConfigs) (e : RegistryEntry) (platform : Platform) :
    Installing (ServerBinary × ServerConfigs) :=
  match plan servers e platform with
  | .error error => Installing.fail error
  | .ok p => do
    let had ← setAside (place servers e) (asidePlace servers e)
    let aside := if had then some (asidePlace servers e) else none
    let result ← tryCatch (Except.ok <$> attempt configs e p platform)
      fun error => pure (.error error)
    match result, aside with
    | .ok done, some previous =>
      discard (Installing.lift (removePath previous))
      pure done
    | .ok done, none => pure done
    | .error error, _ =>
      rollback p.backend (place servers e) aside
      Installing.fail error

end Install

structure Installer where
  servers : Path
  configs : ServerConfigs
  platform : Platform
  /-- whether an install is running -/
  active : Bool
  /-- the install that runs, or the last one that did -/
  operation : Option Operation

namespace Installer

def ofConfigs (servers : Path) (configs : ServerConfigs) (platform : Platform) : Installer :=
  ⟨servers, configs, platform, false, none⟩

/-- Takes the one place for a running install. -/
def reserve (i : Installer) (e : RegistryEntry) : Except Error Installer :=
  if i.active then .error (.installing ((i.operation.map (·.package)).getD e.name))
  else .ok { i with active := true, operation := some (.start e.name) }

/-- Asks the running install to stop; the answer is whether there is one. -/
def cancel (i : Installer) : Bool := i.active

/-- Runs the install that has been reserved, to its end. -/
def runReserved (i : Installer) (e : RegistryEntry) :
    Program (Except Error ServerBinary × Installer) := do
  let (result, o) ← (Install.run i.servers i.configs e i.platform).run.run (.start e.name)
  let finished := { i with active := false, operation := some (o.finish result) }
  match result with
  | .ok (binary, configs) => pure (.ok binary, { finished with configs := configs })
  | .error error => pure (.error error, finished)

/-- Installs an entry and registers it for its languages. -/
def install (i : Installer) (e : RegistryEntry) :
    Program (Except Error ServerBinary × Installer) := do
  match i.reserve e with
  | .error error => pure (.error error, i)
  | .ok reserved => reserved.runReserved e

end Installer

end LanguageHost
