import LanguageHost.Package.Basic
import LanguageHost.Percent

/-!
Package identifiers, `pkg:<scheme>/<name>@<version>[#subpath][?key=value&...]`. `Package.ofId?` reads
one and refuses whatever does not fit; `Package.canonical` writes the form in which equal packages look
alike.
-/
namespace LanguageHost.Package

/-- A path with its fragment taken out. A query behind the fragment joins the one before it. -/
def cutFragment (path : List Char) : List Char × Option (List Char) :=
  match Text.cut? '#' path with
  | none => (path, none)
  | some (head, tail) =>
    let (fragment, query) := match Text.cut? '?' tail with
      | some (f, q) => (f, some q)
      | none => (tail, none)
    let joined := match query with
      | some q => if '?' ∈ head then head ++ '&' :: q else head ++ '?' :: q
      | none => head
    (joined, if fragment.isEmpty then none else some fragment)

/-- The name and the version of a body. An `@` in front belongs to the name; a version that is missing
or empty is the latest. -/
def cutVersion (body : List Char) : List Char × List Char :=
  let versionOf (v : List Char) : List Char := if v.isEmpty then latest.toList else v
  match body with
  | '@' :: rest =>
    match Text.cut? '@' rest with
    | some (name, v) => ('@' :: name, versionOf v)
    | none => (body, latest.toList)
  | _ =>
    match Text.cut? '@' body with
    | some (name, v) => (name, versionOf v)
    | none => (body, latest.toList)

/-- Exactly one slash, with text on both sides. -/
def isOwnerRepo (name : List Char) : Bool :=
  match Text.cut? '/' name with
  | some (owner, repo) => !owner.isEmpty && !repo.isEmpty && !repo.contains '/'
  | none => false

/-- What the query pairs read so far have said. -/
structure Query where
  options : Table String
  repository : Option String
  pin : Option Pin

/-- One query pair. A second pin of either kind is refused. -/
def Query.add (version : String) (q : Query) (pair : List Char) : Option Query := do
  let (key, raw) := (Text.cut? '=' pair).getD (pair, [])
  let value := String.ofList (← Percent.decode? raw)
  let key := String.ofList key
  if key = "repository_url" then pure { q with repository := some value }
  else if (key = "rev" ∨ key = "tag") ∧ value = "true" then
    if q.pin.isSome then none
    else pure { q with pin := some (if key = "rev" then .revision version else .tag version) }
  else pure { q with options := q.options.insert key value }

def queryPairs (query : List Char) : List (List Char) :=
  (Text.fields '&' query).filter fun p => !p.isEmpty

def addSubpath (options : Table String) : Option (List Char) → Option (Table String)
  | none => some options
  | some fragment =>
    (Percent.decode? fragment).map fun s => options.insert "subpath" (String.ofList s)

def ofId? (id : String) : Option Package := do
  let rest ← Text.afterStart? "pkg:".toList (Text.trimmed id.toList)
  let (scheme, path) ← Text.cut? '/' rest
  let ecosystem ← Ecosystem.ofScheme? (String.ofList scheme)
  let (path, fragment) := if ecosystem = .golang then cutFragment path else (path, none)
  let (body, query) := (Text.cut? '?' path).getD (path, [])
  let (rawName, rawVersion) := cutVersion body
  let name ← Percent.decode? rawName
  let version ← Percent.decode? rawVersion
  if name.isEmpty ∨ version.isEmpty ∨ (ecosystem = .github ∧ !isOwnerRepo name) then none
  else
    let name := String.ofList name
    let version := String.ofList version
    let q ← (queryPairs query).foldlM (Query.add version) ⟨[], none, none⟩
    let options ← addSubpath q.options fragment
    let repository :=
      if ecosystem = .github ∧ q.repository.isNone then some ("https://github.com/" ++ name)
      else q.repository
    let pin := match q.pin with
      | some pin => some pin
      | none => repository.map fun _ => Pin.infer version
    pure ⟨id, ecosystem, name, version, repository, pin, options⟩

/-- The characters that would end a version, a subpath or an option value too soon. -/
def isReserved (c : Char) : Bool :=
  Percent.isControl c || c == ' ' || c == '#' || c == '%' || c == '&' || c == '=' || c == '?'

def escape (s : String) : String := Percent.encodeString isReserved s

def fragment? (p : Package) : Option String :=
  if p.ecosystem = .golang then p.option? "subpath" else none

/-- The query pairs of the canonical form, in order of key and value. -/
def canonicalPairs (p : Package) : List (String × String) :=
  let options := p.options.filter fun (k, _) => p.fragment?.isNone || k != "subpath"
  let repository := match p.repository with
    | some url => [("repository_url", url)]
    | none => []
  let pin := match p.pin with
    | some (.revision _) => [("rev", "true")]
    | some (.tag _) => [("tag", "true")]
    | none => []
  let pairs := if p.ecosystem = .github then options else options ++ repository ++ pin
  pairs.mergeSort fun (k, v) (l, w) => k < l || (k == l && v ≤ w)

def canonical (p : Package) : String :=
  let head := "pkg:" ++ p.ecosystem.scheme ++ "/" ++ p.name ++ "@" ++ escape p.version
  let fragment := match p.fragment? with
    | some s => "#" ++ escape s
    | none => ""
  let pairs := p.canonicalPairs.map fun (k, v) => k ++ "=" ++ escape v
  let query := match pairs with
    | [] => ""
    | _ => "?" ++ String.intercalate "&" pairs
  head ++ fragment ++ query

end LanguageHost.Package
