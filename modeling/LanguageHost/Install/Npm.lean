import LanguageHost.Install.Backend
import LanguageHost.Json.Parser

/-!
Packages of npm. Every server has a project of its own, so that no two share dependencies.
-/
namespace LanguageHost.Npm

def detected : Program Bool :=
  Backend.detect "npm" ["--version"] [.number, .text ".", .number, .text ".", .number]

/-- The package as npm is asked for it. -/
def spec (p : Package) : String :=
  match p.repository, p.pin with
  | some url, some pin => "git+" ++ url ++ "#" ++ pin.value
  | some url, none => "git+" ++ url
  | none, _ => if p.isLatest then p.name else p.name ++ "@" ++ p.version

def prepare (dir : Path) : Installing Unit := do
  Backend.requireTool "npm" detected
  Installing.io (.makeDirs dir)
  if !(← Installing.exists? (dir / "package.json")) then
    Installing.command ((Command.ofArgs "npm" ["init", "--yes"]).within dir)
  -- Dependencies of a package stay inside its own directory.
  Installing.io (Program.writeText (dir / ".npmrc") "install-strategy=shallow\n")

def readJson (file : Path) : Installing Json := do
  match ← Installing.lift (Program.readText file) with
  | .error e => Installing.fail (.io e)
  | .ok text =>
    match Json.ofText? text with
    | some j => pure j.canonical
    | none => Installing.fail (.json "the file is not valid")

/-- The package has to be a dependency, and a plain one to be there in the wanted version. -/
def verify (dir : Path) (p : Package) : Installing Unit := do
  let manifest ← readJson (dir / "package.json")
  let declared := (manifest.get? "dependencies").bind fun deps => deps.get? p.name
  if declared.isNone then Backend.failed p "package is missing from package.json dependencies"
  else if p.isLatest ∨ p.repository.isSome then pure ()
  else
    let file := dir / "node_modules" / p.name / "package.json"
    let installed ← tryCatch (readJson file) fun _ =>
      Backend.failed p "package is missing from node_modules"
    let found := (installed.get? "version").bind Json.str?
    if found = some p.version then pure ()
    else Backend.failed p ("expected version " ++ p.version ++ ", found " ++ found.getD "none")

def install (dir : Path) (m : InstallMethod) : Installing Unit := do
  let p ← Backend.packageOf m
  Installing.command
    ((Command.ofArgs "npm" ("install" :: spec p :: p.optionList "extra_packages")).within dir)
  verify dir p

def backend (dir : Path) : Backend where
  tool := "npm"
  isInstalled := detected
  prepare := prepare dir
  install := install dir
  binaryPath name := dir / "node_modules" / ".bin" / name
  binaryEnv := []
  cleanup := do
    Installing.remove (dir / "package-lock.json")
    Installing.remove (dir / "node_modules")

end LanguageHost.Npm
