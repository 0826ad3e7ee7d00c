import LanguageHost.Install.Backend
import LanguageHost.Toml.Document

/-!
Crates, installed below a root of their own. The ledger there tells what has arrived.
-/
namespace LanguageHost.Cargo

def detected : Program Bool :=
  Backend.detect "cargo" ["--version"] [.text "cargo ", .number, .text ".", .number]

/-- The pin of a repository, unless it is a tag that only stands for the latest version. -/
def pinArgs : Option Pin → List String
  | some (.tag t) => if t = latest then [] else ["--tag", t]
  | some (.revision r) => ["--rev", r]
  | none => []

def arguments (dir : Path) (p : Package) : List String :=
  let origin := match p.repository with
    | some url => ["--git", url] ++ pinArgs p.pin
    | none => if p.isLatest then [] else ["--version", p.version]
  let features := p.optionList "features"
  ["install", "--root", dir.text] ++ origin ++
    (if features.isEmpty then [] else ["--features", String.intercalate "," features]) ++
    (if p.option? "locked" = some "true" then ["--locked"] else []) ++ [p.name]

/-- Name and version of a ledger entry, `name version (source)`. -/
def ledgerEntry? (key : String) : Option (String × String) :=
  match Text.words key with
  | name :: version :: _ => some (name, version)
  | _ => none

/-- The version that the ledger has for a name; the first entry counts. -/
def ledgerVersion? (ledger : Json) (name : String) : Option String :=
  let keys := match ledger.get? "v1" with
    | some (.obj members) => sortStrings (members.map Prod.fst)
    | _ => []
  (keys.filterMap ledgerEntry?).lookup name

def verify (dir : Path) (p : Package) : Installing Unit := do
  let text ← Backend.readOrFail p (dir / ".crates.toml") "cargo left no .crates.toml"
  match Toml.ofText? text with
  | none => Installing.fail (.toml "the ledger is not valid")
  | some ledger =>
    match ledgerVersion? ledger p.name with
    | none => Backend.failed p "crate is missing from .crates.toml"
    | some version =>
      if p.isLatest ∨ p.repository.isSome ∨ version = p.version then pure ()
      else Backend.failed p ("expected version " ++ p.version ++ ", found " ++ version)

def install (dir : Path) (m : InstallMethod) : Installing Unit := do
  let p ← Backend.packageOf m
  Installing.command (.ofArgs "cargo" (arguments dir p))
  verify dir p

def backend (dir : Path) : Backend where
  tool := "cargo"
  isInstalled := detected
  prepare := do
    Backend.requireTool "cargo" detected
    Installing.io (.makeDirs dir)
  install := install dir
  binaryPath name := dir / "bin" / name
  binaryEnv := []
  cleanup := pure ()

end LanguageHost.Cargo
