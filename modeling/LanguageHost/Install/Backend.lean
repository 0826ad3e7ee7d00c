import LanguageHost.Install.Operation
import LanguageHost.Package.Method
import LanguageHost.Text.Digit

/-!
What every package manager offers to an install: a check for its tool, the preparation of a directory,
the install itself with its verification, and the cleanup after one that failed.
-/
namespace LanguageHost

structure Backend where
  tool : String
  isInstalled : Program Bool
  prepare : Installing Unit
  /-- installs, then makes sure that the package has really arrived -/
  install : InstallMethod → Installing Unit
  /-- where an executable of the package is -/
  binaryPath : String → Path
  /-- what the environment of an installed executable adds -/
  binaryEnv : Table String
  /-- removes what a failed install leaves -/
  cleanup : Installing Unit

/-- The start of a version text. Digits may be those of any script. -/
inductive VersionPart where
  | text (s : String)
  /-- one digit -/
  | digit
  /-- digits, at least one -/
  | number

namespace VersionPart

def matches? : List VersionPart → List Char → Bool
  | [], _ => true
  | .text s :: rest, cs =>
    match Text.afterStart? s.toList cs with
    | some cs => matches? rest cs
    | none => false
  | .digit :: rest, cs =>
    match cs with
    | c :: cs => Text.isDecimalDigit c && matches? rest cs
    | [] => false
  | .number :: rest, cs =>
    !(cs.takeWhile Text.isDecimalDigit).isEmpty &&
      matches? rest (cs.dropWhile Text.isDecimalDigit)

end VersionPart

namespace Backend

/-- Whether a tool is there and tells a version that begins as it should. -/
def detect (tool : String) (args : List String) (version : List VersionPart) : Program Bool := do
  match ← Program.ask (.findProgram tool) with
  | none => pure false
  | some file =>
    match ← capture (.ofArgs file.text args) .steady with
    | .ok output => pure (VersionPart.matches? version (Text.trimmed output.toList))
    | .error _ => pure false

def requireTool (tool : String) (isInstalled : Program Bool) : Installing Unit := do
  if !(← Installing.lift isInstalled) then Installing.fail (.toolMissing tool)

/-- The package that the ecosystem's own manager is to install. -/
def packageOf : InstallMethod → Installing Package
  | .package source => pure source
  | other => Installing.fail
      (.unsupportedSource (other.label ++ " install is not handled by this backend"))

def failed (source : Package) (reason : String) : Installing α :=
  Installing.fail (.installFailed source.name reason)

def readOrFail (source : Package) (file : Path) (reason : String) : Installing String := do
  match ← Installing.lift (Program.readText file) with
  | .ok text => pure text
  | .error _ => failed source reason

end Backend

end LanguageHost
