import LanguageHost.Table
import LanguageHost.Text.Blank

/-!
Packages: the ecosystem that one comes from, its version, and the place in a repository that it is
pinned to.
-/
namespace LanguageHost

inductive Ecosystem where
  | npm | cargo | pypi | gem | golang | github
deriving DecidableEq, Inhabited, Repr

namespace Ecosystem

def all : List Ecosystem := [.npm, .cargo, .pypi, .gem, .golang, .github]

/-- The word that stands for the ecosystem in an identifier. -/
def scheme : Ecosystem → String
  | .npm => "npm"
  | .cargo => "cargo"
  | .pypi => "pypi"
  | .gem => "gem"
  | .golang => "golang"
  | .github => "github"

def ofScheme? (s : String) : Option Ecosystem := all.find? fun e => e.scheme == s

end Ecosystem

/-- A fixed place in a repository. -/
inductive Pin where
  | tag (name : String)
  | revision (hash : String)
deriving DecidableEq, Repr

namespace Pin

/-- Forty hexadecimal digits of either case. -/
def isCommitHash (version : String) : Bool :=
  version.length == 40 && version.toList.all Text.isHexDigit

/-- A version that is a full commit hash pins a revision, any other a tag. -/
def infer (version : String) : Pin :=
  if isCommitHash version then .revision version else .tag version

def value : Pin → String
  | .tag v | .revision v => v

def kind : Pin → String
  | .tag _ => "tag"
  | .revision _ => "revision"

end Pin

/-- The version of a package that names none. -/
def latest : String := "latest"

/-- What a package identifier says. -/
structure Package where
  /-- the identifier as it was written -/
  id : String
  ecosystem : Ecosystem
  name : String
  version : String
  repository : Option String
  pin : Option Pin
  options : Table String
deriving DecidableEq, Repr

namespace Package

def option? (p : Package) (key : String) : Option String := p.options.get? key

def isLatest (p : Package) : Bool := p.version == latest

/-- The values of an option that holds several, separated by commas. -/
def optionList (p : Package) (key : String) : List String :=
  match p.option? key with
  | none => []
  | some v => ((Text.split ',' v).map Text.trim).filter (· ≠ "")

end Package

end LanguageHost
