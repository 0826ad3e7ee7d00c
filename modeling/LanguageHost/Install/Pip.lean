import LanguageHost.Install.Backend

/-!
Python packages, each server in a virtual environment of its own.
-/
namespace LanguageHost.Pip

def detected : Program Bool := Backend.detect "python3" ["--version"] [.text "Python 3."]

def bin (dir : Path) : Path := dir / "venv" / "bin"

def python (dir : Path) : Path := bin dir / "python"

def requirementsFile : String := "requirements.txt"

/-- The line that asks for the package. -/
def requirement (p : Package) : String :=
  let name := match p.option? "extra" with
    | some extra => p.name ++ "[" ++ extra ++ "]"
    | none => p.name
  match p.repository, p.pin with
  | some url, some pin => name ++ " @ git+" ++ url ++ "@" ++ pin.value
  | some url, none => name ++ " @ git+" ++ url
  | none, _ => if p.isLatest then name else name ++ "==" ++ p.version

def prepare (dir : Path) : Installing Unit := do
  Backend.requireTool "python3" detected
  Installing.io (.makeDirs dir)
  if !(← Installing.exists? (python dir)) then
    Installing.command ((Command.ofArgs "python3" ["-m", "venv", "venv"]).within dir)
  Installing.io (Program.writeText (dir / requirementsFile) "")

/-- The version in the description of an installed package. -/
def shownVersion? (output : String) : Option String :=
  ((Text.lines output).findSome? fun line => Text.afterStart? "Version:".toList line.toList).map
    fun cs => String.ofList (Text.trimmed cs)

def verify (dir : Path) (p : Package) : Installing Unit := do
  let query := Command.ofArgs (python dir).text ["-m", "pip", "show", p.name]
  match ← Installing.lift (capture query .quiet) with
  | .error _ => Backend.failed p "pip does not know the package"
  | .ok output =>
    match shownVersion? output with
    | none => Backend.failed p "pip show reported no version"
    | some version =>
      if p.isLatest ∨ p.repository.isSome ∨ version = p.version then pure ()
      else Backend.failed p ("expected version " ++ p.version ++ ", found " ++ version)

def install (dir : Path) (m : InstallMethod) : Installing Unit := do
  let p ← Backend.packageOf m
  Installing.io (Program.writeText (dir / requirementsFile) (requirement p ++ "\n"))
  Installing.command ((Command.ofArgs (python dir).text
    ["-m", "pip", "install", "--disable-pip-version-check", "-r", requirementsFile]).within dir)
  verify dir p

def backend (dir : Path) : Backend where
  tool := "python3"
  isInstalled := detected
  prepare := prepare dir
  install := install dir
  binaryPath name := bin dir / name
  binaryEnv := []
  cleanup := do
    if ← Installing.exists? dir then
      Installing.io (Program.writeText (dir / requirementsFile) "")

end LanguageHost.Pip
