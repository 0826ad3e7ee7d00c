import LanguageHost.Cli.Arguments
import LanguageHost.Cli.Symbols
import LanguageHost.Config.Loading
import LanguageHost.Install.Installer

/-!
The commands of the command line. What the machine can answer by itself is one program; a listing of
symbols ends in a plan, for whoever can start servers.
-/
namespace LanguageHost.Cli

open Running

/-- The machine that this program is built for. -/
def platform : Platform := ⟨"linux", "x86_64"⟩

/-- What the commands on installed servers share. -/
structure State where
  lookup : Lookup
  configs : ServerConfigs
  dataDir : Path

def State.load : Running State := do
  let lookup ← ofExcept (fun e => (Failure.ofError e).within "Failed to load configuration")
    (← lift Loading.lookup.run)
  let dataDir ← ofExcept Failure.ofError (← lift (Loading.dataDir lookup))
  let configs ← ofExcept Failure.ofError
    (← lift (ServerConfigs.load (dataDir / "manifest.json") lookup.user).run)
  pure ⟨lookup, configs, dataDir⟩

/-! Identifiers. -/

def pinJson (p : Pin) : Json := .obj [("kind", .str p.kind), ("value", .str p.value)]

def packageJson (p : Package) : Json := .obj [("ecosystem", .str p.ecosystem.scheme),
  ("git_reference", Json.ofOption pinJson p.pin), ("name", .str p.name),
  ("options", Json.ofStringTable p.options), ("repository_url", Json.ofOption .str p.repository),
  ("source_id", .str p.id), ("version", .str p.version)]

/-- The registry entry of the same package at the same place. -/
def registered? (p : Package) : Option RegistryEntry :=
  Lookup.available.find? fun e =>
    (Package.ofId? e.source.id).any fun known => known.canonical == p.canonical

/-- How a package is installed. The assets and builds of repositories are known to the registry alone,
which is only there if the configuration can be read. -/
def installLabel (readable : Bool) (p : Package) : Option String × Option String :=
  match if readable then registered? p else none with
  | some e => (some e.name, some (e.method platform).label)
  | none =>
    if p.ecosystem = .github then (none, none)
    else (none, some (PackageOrigin.method ⟨p.id, none, none⟩ platform).label)

def parse (id : String) : Running Unit := do
  match Package.ofId? id with
  | none => fail (.ofText ("Invalid package identifier: " ++ id))
  | some p =>
    let readable := (← lift Loading.lookup.run).isOk
    let (package, method) := installLabel readable p
    print ((Json.obj [("canonical", .str p.canonical), ("method", Json.ofOption .str method),
      ("package", Json.ofOption .str package), ("source", packageJson p)]).pretty 0)

/-! The list. -/

def padded (width : Nat) (s : String) : String :=
  s ++ String.ofList (List.replicate (width - s.length) ' ')

/-- What is installed of an entry, by the first language it is installed for. -/
def status (m : Manifest) (e : RegistryEntry) : String :=
  match m.find? fun (_, s) => s.package == e.name with
  | none => ""
  | some (_, s) => (if s.enabled then "installed " else "disabled ") ++ s.version

def listLine (m : Manifest) (e : RegistryEntry) : String :=
  padded 28 e.name ++ " " ++ padded 24 (String.intercalate "," e.languages) ++ " " ++ status m e

def list : Running Unit := do
  let s ← State.load
  printAll (Lookup.available.map (listLine s.configs.installed))

/-! Installing. -/

/-- The lines of an operation that are new to somebody who has printed some. -/
def freshLines (count : Nat) (o : Operation) : List String :=
  (o.output.drop count).map fun line => "  " ++ line

/-- What is printed by somebody who has printed some lines and sees an operation grow. -/
def watch (count : Nat) : List Operation → List String
  | [] => []
  | o :: rest => freshLines count o ++ watch o.output.length rest

/-- The entry of a name, or else of a language. -/
def entryOf (l : Lookup) (package : String) : Except Failure RegistryEntry :=
  match Lookup.byName package, l.byLanguage package with
  | .ok e, _ => .ok e
  | .error _, .ok e => .ok e
  | .error _, .error _ =>
    .error (.ofText ("No language server named or registered for '" ++ package ++ "'"))

def install (package : String) : Running Unit := do
  let s ← State.load
  let e ← ofExcept id (entryOf s.lookup package)
  print ("Installing " ++ e.name ++ " (" ++ e.source.id ++ ")")
  let (result, installer) ← lift
    ((Installer.ofConfigs (s.dataDir / "servers") s.configs platform).install e)
  printAll (watch 0 installer.operation.toList)
  if ← lift (Program.ask .cancelled) then warn "Cancelling..."
  let binary ← ofExcept Failure.ofError result
  print ("Installed " ++ e.name ++ " at " ++ binary.path.text)

def setEnabled (language : String) (enabled : Bool) : Running Unit := do
  let s ← State.load
  match ← ofExcept Failure.ofError (← lift (s.configs.setEnabled language enabled).run) with
  | none => fail (.ofText ("No language server installed for " ++ language))
  | some _ => print ((if enabled then "Enabled " else "Disabled ") ++ language)

/-! Symbols. -/

/-- The nearest directory that holds a repository. -/
def repositoryAbove : List Path → Program (Option Path)
  | [] => pure none
  | dir :: rest => do
    if ← Program.exists? (dir / ".git") then pure (some dir) else repositoryAbove rest

def selfAndAbove (p : Path) : List Path :=
  let components := p.components
  ((List.range components.length).map fun n => Path.ofComponents (components.take (n + 1))).reverse

/-- The root of the workspace: the one given, that of the repository, or where the program runs. -/
def workspaceRoot (given : Option Path) : Running Path := do
  match given with
  | some p => ofExcept Failure.ofIo (← lift (Program.ask (.canonical p)))
  | none =>
    let cwd ← lift (Program.ask .workingDir)
    return (← lift (repositoryAbove (selfAndAbove cwd))).getD cwd

def planSymbols (workspace : Option Path) (file : Path) (language : Option String) :
    Running SymbolsPlan := do
  let root ← workspaceRoot workspace
  let s ← State.load
  let place ← ofExcept (fun e => (Failure.ofIo e).within ("Cannot open " ++ file.text))
    (← lift (Program.ask (.canonical file)))
  let language ← match language with
    | some language => pure language
    | none => (·.primaryLanguage) <$> ofExcept Failure.ofError (Lookup.byFile place)
  let text ← lift (Program.readText place)
  pure ⟨s.configs, place, text, language, root, s.lookup.startPolicy, s.lookup.requestTimeout * 1000⟩

def showSymbols (r : SymbolsResult) : Report :=
  match r.result with
  | .ok lines => ⟨⟨lines, r.warnings⟩, 0⟩
  | .error e => ⟨⟨[], r.warnings ++ (Failure.ofError e).lines⟩, 1⟩

/-! The whole command line. -/

/-- How far the machine gets by itself. -/
inductive Action where
  | ended (r : Report)
  | symbols (p : SymbolsPlan)

/-- The log starts empty, if it goes to a file. -/
def openLog (file : Option Path) : Running Unit :=
  match file with
  | none => pure ()
  | some p => do ofExcept Failure.ofIo (← lift (Program.ask (.writeFile p [])))

def ofRunning (r : Running Unit) : Program Action := do return .ended (← r.report)

def perform (a : Arguments) : Program Action :=
  match a.request with
  | .parse id => ofRunning (do openLog a.logFile; parse id)
  | .list => ofRunning (do openLog a.logFile; list)
  | .install package => ofRunning (do openLog a.logFile; install package)
  | .enable language => ofRunning (do openLog a.logFile; setEnabled language true)
  | .disable language => ofRunning (do openLog a.logFile; setEnabled language false)
  | .symbols file language => do
    let plan : Running SymbolsPlan := do
      openLog a.logFile
      planSymbols a.workspace file language
    match ← plan.run.run ⟨[], []⟩ with
    | (.ok p, _) => pure (.symbols p)
    | (.error f, _) => pure (.ended ⟨⟨[], f.lines⟩, 1⟩)

def usage : List String := ["Usage: lspm [OPTIONS] <COMMAND>", "", "Commands:"] ++
  Verb.all.map (fun v => "  " ++ v.word) ++
  ["", "Options:", "  -w, --workspace <WORKSPACE>", "  -l, --log-level <LOG_LEVEL>",
    "      --log-file <LOG_FILE>", "  -h, --help", "  -V, --version"]

def start (args : List String) : Program Action :=
  match Usage.ofArguments args with
  | .run a => perform a
  | .help => pure (.ended ⟨⟨usage, []⟩, 0⟩)
  | .version => pure (.ended ⟨⟨["lspm 0.1.0"], []⟩, 0⟩)
  | .refused => pure (.ended ⟨⟨[], usage⟩, 2⟩)

/-- The program on a modelled machine, whose servers are processes; `speaker` says how they behave. -/
def run (h : Host) (speaker : Invocation → Peer) (args : List String) : Report × Host × Option Fleet :=
  match (start args).run h with
  | (.ended r, h) => (r, h, none)
  | (.symbols p, h) =>
    let (r, f) := p.run (h.launcher speaker)
    (showSymbols r, h, some f)

end LanguageHost.Cli
