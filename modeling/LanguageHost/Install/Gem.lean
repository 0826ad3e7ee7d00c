import LanguageHost.Install.Backend

/-!
Ruby gems, installed into a directory that is also their home.
-/
namespace LanguageHost.Gem

def detected : Program Bool := Backend.detect "gem" ["--version"] [.number, .text ".", .number]

/-- A gem cannot come from a repository. -/
def command (dir : Path) (p : Package) : Except Error Command :=
  if p.repository.isSome then
    .error (.unsupportedSource (p.id ++ ": gem cannot install from a git repository"))
  else
    let version := if p.isLatest then [] else ["-v", p.version]
    .ok ((Command.ofArgs "gem" (["install", "--no-document", "--install-dir", dir.text, "--bindir",
      (dir / "bin").text, p.name] ++ version)).addEnv "GEM_HOME" dir.text)

def verify (dir : Path) (p : Package) : Installing Unit := do
  let specs := dir / "specifications"
  if p.isLatest then
    match ← Installing.lift (Program.ask (.list specs)) with
    | .error _ => Backend.failed p "no gem specifications found"
    | .ok names =>
      let fits (name : String) : Bool :=
        Text.startsWith (p.name ++ "-") name && Text.endsWith ".gemspec" name
      if names.any fits then pure () else Backend.failed p "gem specification is missing"
  else
    let file := specs / (p.name ++ "-" ++ p.version ++ ".gemspec")
    if ← Installing.exists? file then pure () else Backend.failed p (file.text ++ " is missing")

def install (dir : Path) (m : InstallMethod) : Installing Unit := do
  let p ← Backend.packageOf m
  Installing.command (← Installing.ofExcept (command dir p))
  verify dir p

def backend (dir : Path) : Backend where
  tool := "gem"
  isInstalled := detected
  prepare := do
    Backend.requireTool "gem" detected
    Installing.io (.makeDirs (dir / "bin"))
  install := install dir
  binaryPath name := dir / "bin" / name
  binaryEnv := [("GEM_HOME", dir.text), ("GEM_PATH", dir.text)]
  cleanup := Installing.remove (dir / "cache")

end LanguageHost.Gem
