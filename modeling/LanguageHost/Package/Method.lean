import LanguageHost.Json.Basic
import LanguageHost.Package.Identifier
import LanguageHost.Package.Platform

/-!
The way in which a package is installed, as far as its identifier, the asset template and the build
command of its registry entry decide it.
-/
namespace LanguageHost

inductive InstallMethod where
  /-- the ecosystem's own package manager installs it -/
  | package (source : Package)
  | sourceBuild (source : Package) (build : String)
  | binaryDownload (source : Package) (url : String)
  | unknown
deriving DecidableEq, Repr

/-- Where a package comes from, as the registry writes it. -/
structure PackageOrigin where
  id : String
  asset : Option String
  build : Option String
deriving DecidableEq, Repr

namespace InstallMethod

def source? : InstallMethod → Option Package
  | .package source | .sourceBuild source _ | .binaryDownload source _ => some source
  | .unknown => none

def label : InstallMethod → String
  | .package _ => "package"
  | .sourceBuild _ _ => "source-build"
  | .binaryDownload _ _ => "binary-download"
  | .unknown => "unknown"

/-- The label, the package, and what else decides the install. -/
def toJson (m : InstallMethod) : Json :=
  Json.object ([("method", .str m.label), ("source", Json.ofOption (fun p => .str p.canonical) m.source?)] ++
    (match m with
      | .sourceBuild _ build => [("build_command", .str build)]
      | .binaryDownload _ url => [("url", .str url)]
      | _ => []))

/-- Where a repository keeps the asset of a release. -/
def releaseUrl (repository tag file : String) : String :=
  let base := String.ofList (repository.toList.reverse.dropWhile (· = '/')).reverse
  if tag = latest then base ++ "/releases/latest/download/" ++ file
  else base ++ "/releases/download/" ++ tag ++ "/" ++ file

end InstallMethod

/-- The method for an origin. Only a repository's own releases can be downloaded or built from source, and
an asset goes before a build. -/
def PackageOrigin.method (origin : PackageOrigin) (platform : Platform) : InstallMethod :=
  match Package.ofId? origin.id with
  | none => .unknown
  | some source =>
    if source.ecosystem ≠ .github then .package source
    else match origin.asset, origin.build with
      | some template, _ =>
        match platform.expand template source.version, source.repository with
        | .ok file, some repository =>
          .binaryDownload source (InstallMethod.releaseUrl repository source.version file)
        | _, _ => .unknown
      | none, some build => .sourceBuild source build
      | none, none => .unknown

end LanguageHost
