import LanguageHost.Install.Backend

/-!
Go modules. A module made for the purpose pins the version, and the executable goes to its `bin`.
-/
namespace LanguageHost.Golang

def detected : Program Bool := Backend.detect "go" ["version"] [.text "go version go", .digit]

def moduleName : String := "lspm-install"

def go (dir : Path) (args : List String) : Command :=
  (((Command.ofArgs "go" args).within dir).addEnv "GOBIN" (dir / "bin").text).addEnv
    "GOFLAGS" "-modcacherw"

def trimSlashes (cs : List Char) : List Char :=
  ((cs.dropWhile (· = '/')).reverse.dropWhile (· = '/')).reverse

/-- The package below the module that is built. -/
def packagePath (p : Package) : String :=
  match p.option? "subpath" with
  | some sub => p.name ++ "/" ++ String.ofList (trimSlashes sub.toList)
  | none => p.name

def moduleVersion (p : Package) : String :=
  match p.pin with
  | some pin => pin.value
  | none => p.version

/-- The text with every `require` taken off its front. -/
def dropRequire (fuel : Nat) (cs : List Char) : List Char :=
  match fuel with
  | 0 => cs
  | fuel + 1 =>
    match Text.afterStart? "require".toList cs with
    | some rest => dropRequire fuel rest
    | none => cs

/-- Module and version of a line of `go.mod`. -/
def requirement? (line : String) : Option (String × String) :=
  let cs := Text.trimmed line.toList
  match Text.wordsOf (dropRequire cs.length cs) with
  | module :: version :: _ => some (String.ofList module, String.ofList version)
  | _ => none

def verify (dir : Path) (p : Package) : Installing Unit := do
  let text ← Backend.readOrFail p (dir / "go.mod") "go.mod is missing"
  match ((Text.lines text).filterMap requirement?).lookup p.name with
  | none => Backend.failed p "module is missing from go.mod"
  | some version =>
    if p.isLatest ∨ version = moduleVersion p then pure ()
    else Backend.failed p ("go.mod requires " ++ version ++ ", wanted " ++ p.version)

def install (dir : Path) (m : InstallMethod) : Installing Unit := do
  let p ← Backend.packageOf m
  Installing.command (go dir ["get", p.name ++ "@" ++ moduleVersion p])
  Installing.command (go dir ["install", packagePath p])
  verify dir p

def backend (dir : Path) : Backend where
  tool := "go"
  isInstalled := detected
  prepare := do
    Backend.requireTool "go" detected
    Installing.io (.makeDirs dir)
    if !(← Installing.exists? (dir / "go.mod")) then
      Installing.command (go dir ["mod", "init", moduleName])
  install := install dir
  binaryPath name := dir / "bin" / name
  binaryEnv := []
  cleanup := do
    Installing.remove (dir / "go.sum")
    Installing.remove (dir / "go.mod")

end LanguageHost.Golang
