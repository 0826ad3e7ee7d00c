import LanguageHost.Install.Backend

/-!
Builds from source: the repository is cloned to `src`, checked against the pin, and built there.
-/
namespace LanguageHost.Checkout

def detected : Program Bool := Backend.detect "git" ["--version"] [.text "git version ", .digit]

def source (dir : Path) : Path := dir / "src"

def git (dir : Path) (args : List String) : Command := (Command.ofArgs "git" args).within (source dir)

/-- The commands that fetch the source; without a pin they fetch the default branch. -/
def cloneCommands (dir : Path) (url : String) (pin : Option Pin) : List Command :=
  let clone (args : List String) : Command :=
    (Command.ofArgs "git" ("clone" :: args ++ [url, "src"])).within dir
  match pin with
  | some (.revision r) => [clone [], git dir ["checkout", "--detach", r]]
  | some (.tag t) =>
    if t = latest then [clone ["--depth", "1"]] else [clone ["--depth", "1", "--branch", t]]
  | none => [clone ["--depth", "1"]]

def fetch (dir : Path) (p : Package) : Installing Unit := do
  match p.repository with
  | none => Backend.failed p "no repository URL"
  | some url => for c in cloneCommands dir url p.pin do Installing.command c

/-- What has to be printed, and by which command. -/
def check? (dir : Path) : Option Pin → Option (String × Command)
  | some (.revision r) => some (r, git dir ["rev-parse", "HEAD"])
  | some (.tag t) =>
    if t = latest then none else some (t, git dir ["describe", "--tags", "--exact-match"])
  | none => none

def verify (dir : Path) (p : Package) : Installing Unit := do
  match check? dir p.pin with
  | none => pure ()
  | some (expected, c) =>
    let output ← Installing.ofExcept (← Installing.lift (capture c .quiet))
    let found := Text.trim output
    if found = expected then pure ()
    else Backend.failed p ("checked out " ++ found ++ ", wanted " ++ expected)

def install (dir : Path) : InstallMethod → Installing Unit
  | .sourceBuild p build => do
    fetch dir p
    verify dir p
    Installing.command ((Command.shell build).within (source dir))
  | m => Installing.fail (.unsupportedSource (m.label ++ " install is not a source build"))

def backend (dir : Path) : Backend where
  tool := "git"
  isInstalled := detected
  prepare := do
    Backend.requireTool "git" detected
    Installing.io (.makeDirs dir)
    -- A clone does not go into a directory that is there.
    Installing.remove (source dir)
  install := install dir
  binaryPath name := source dir / name
  binaryEnv := []
  cleanup := Installing.remove (source dir)

end LanguageHost.Checkout
