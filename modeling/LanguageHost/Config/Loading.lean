import LanguageHost.Config.Lookup
import LanguageHost.Machine.Program

/-!
Where configuration comes from: the first of the project's file, the file that a variable names, and the
user's own file that is there.
-/
namespace LanguageHost.Loading

/-- The home directory: the one that the environment names, or else the account's. -/
def homeDir? : Program (Option Path) := do
  match ← Program.ask (.envVar "HOME") with
  | none | some "" => Program.ask .accountHome
  | some home => pure (some ⟨home⟩)

/-- The directory that a variable names, if it is absolute, or the usual one below the home. -/
def baseDir? (key usual : String) : Program (Option Path) := do
  let home ← homeDir?
  let usualDir := home.map fun h => h / usual
  match ← Program.ask (.envVar key) with
  | some dir => pure (if (Path.mk dir).isAbsolute then some ⟨dir⟩ else usualDir)
  | none => pure usualDir

/-- The files that may hold the configuration, the first to count first. -/
def candidates : Program (List Path) := do
  let cwd ← Program.ask .workingDir
  let named ← Program.ask (.envVar "LSPM_CONFIG")
  let base ← baseDir? "XDG_CONFIG_HOME" ".config"
  pure ([cwd / ".lspm.toml"] ++ (named.map Path.mk).toList ++
    (base.map fun dir => dir / "lspm" / "config.toml").toList)

/-- The configuration of the first file that is there. -/
def firstOf : List Path → Program (Except Error UserConfig)
  | [] => pure (.ok .empty)
  | p :: rest => do
    if ← Program.exists? p then
      match ← Program.readText p with
      | .error e => pure (.error (.config ("Failed to read config: " ++ e.message)))
      | .ok text =>
        match UserConfig.ofToml? text with
        | some user => pure (.ok user)
        | none => pure (.error (.config "Failed to parse config: not a configuration"))
    else firstOf rest

def userConfig : Program (Except Error UserConfig) := do firstOf (← candidates)

def lookup : Program.Fallible Lookup := do return ⟨← ExceptT.mk userConfig⟩

/-- Where installed servers and their manifest are kept. -/
def dataDir (l : Lookup) : Program (Except Error Path) := do
  match l.user.settings.dataDir with
  | some dir => pure (.ok dir)
  | none =>
    match ← baseDir? "XDG_DATA_HOME" ".local/share" with
    | some dir => pure (.ok (dir / "lspm"))
    | none => pure (.error (.config "Cannot determine data directory"))

end LanguageHost.Loading
