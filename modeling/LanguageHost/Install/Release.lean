import LanguageHost.Install.Backend
import LanguageHost.Url.Parser

/-!
Assets of a release: one file is downloaded and unpacked in its place.
-/
namespace LanguageHost.Release

/-- How the host names itself to servers. -/
def agent : String := "lspm/0.1.0"

inductive Archive where
  | tarball | zip | gzip | plain
deriving DecidableEq, Repr

def Archive.ofName (name : String) : Archive :=
  if Text.endsWith ".tar.gz" name ∨ Text.endsWith ".tgz" name then .tarball
  else if Text.endsWith ".zip" name then .zip
  else if Text.endsWith ".gz" name then .gzip
  else .plain

/-- What follows the last slash of a URL, unless it is nothing. -/
def assetName? (url : String) : Option String :=
  match (Text.split '/' url).getLast? with
  | none | some "" => none
  | some name => some name

/-- The URL less its credentials, which a request carries elsewhere. Credentials that are not the
escaped form of any text stay. -/
def withoutCredentials (u : Url) : Url :=
  match u.authority with
  | none => u
  | some a =>
    let isText (s : String) : Bool := (Percent.decode? s.toList).isSome
    if isText a.user ∧ (a.user ≠ "" ∨ a.password.any isText) then
      { u with authority := some { a with user := "", password := none } }
    else u

/-- Whether a request can name the host. -/
def isNameable (u : Url) : Bool :=
  u.authority.all fun a => a.host.toList.all fun c =>
    c != '"' && c != '\x60' && c != '\x7b' && c != '\x7d'

/-- The URL that a request is sent to; a refusal is its reason. -/
def target (url : String) : Except String Url :=
  match (Url.ofText? url).map withoutCredentials with
  | none => .error "builder error"
  | some u =>
    if (u.scheme = "http" ∨ u.scheme = "https") ∧ isNameable u then .ok u
    else .error ("builder error for url (" ++ u.text ++ ")")

/-- How often a request may be sent on to another place. -/
def redirectLimit : Nat := 10

/-- Where a reply sends the request on to. -/
def redirect? (u : Url) (r : Reply) : Option Url :=
  match r.status, r.location with
  | 301, some l | 302, some l | 303, some l | 307, some l | 308, some l => u.resolve? l
  | _, _ => none

/-- What a refusing status means, by the registry of statuses. -/
def statusReason (status : Nat) : String :=
  match status with
  | 400 => "Bad Request"
  | 401 => "Unauthorized"
  | 402 => "Payment Required"
  | 403 => "Forbidden"
  | 404 => "Not Found"
  | 405 => "Method Not Allowed"
  | 406 => "Not Acceptable"
  | 407 => "Proxy Authentication Required"
  | 408 => "Request Timeout"
  | 409 => "Conflict"
  | 410 => "Gone"
  | 411 => "Length Required"
  | 412 => "Precondition Failed"
  | 413 => "Payload Too Large"
  | 414 => "URI Too Long"
  | 415 => "Unsupported Media Type"
  | 416 => "Range Not Satisfiable"
  | 417 => "Expectation Failed"
  | 418 => "I'm a teapot"
  | 421 => "Misdirected Request"
  | 422 => "Unprocessable Entity"
  | 423 => "Locked"
  | 424 => "Failed Dependency"
  | 426 => "Upgrade Required"
  | 428 => "Precondition Required"
  | 429 => "Too Many Requests"
  | 431 => "Request Header Fields Too Large"
  | 451 => "Unavailable For Legal Reasons"
  | 500 => "Internal Server Error"
  | 501 => "Not Implemented"
  | 502 => "Bad Gateway"
  | 503 => "Service Unavailable"
  | 504 => "Gateway Timeout"
  | 505 => "HTTP Version Not Supported"
  | 506 => "Variant Also Negotiates"
  | 507 => "Insufficient Storage"
  | 508 => "Loop Detected"
  | 510 => "Not Extended"
  | 511 => "Network Authentication Required"
  | _ => "<unknown status code>"

/-- The reply to a request, wherever it is sent on to; a refusal is its reason. -/
def request (hops : Nat) (u : Url) : Program (Except String Reply) := do
  let about := " for url (" ++ u.text ++ ")"
  match ← Program.ask (.fetch u.text agent) with
  | none => pure (.error ("error sending request" ++ about))
  | some reply =>
    match redirect? u reply with
    | some next =>
      match hops with
      | 0 => pure (.error ("error following redirect" ++ about))
      | hops + 1 => request hops next
    | none =>
      let status := toString reply.status ++ " " ++ statusReason reply.status
      if 400 ≤ reply.status ∧ reply.status < 500 then
        pure (.error ("HTTP status client error (" ++ status ++ ")" ++ about))
      else if 500 ≤ reply.status ∧ reply.status < 600 then
        pure (.error ("HTTP status server error (" ++ status ++ ")" ++ about))
      else pure (.ok reply)

/-- Downloads to a file, which may be left with a part of the body. -/
def download (url : String) (file : Path) : Installing Unit := do
  let refuse (reason : String) : Installing Unit := Installing.fail (.download url reason)
  Installing.tell ("Downloading " ++ url)
  match target url with
  | .error reason => refuse reason
  | .ok u =>
    match ← Installing.lift (request redirectLimit u) with
    | .error reason => refuse reason
    | .ok reply =>
      Installing.io (.writeFile file [])
      if ← Installing.lift (Program.ask .cancelled) then Installing.fail .cancelled
      else
        Installing.io (.writeFile file reply.body)
        match reply.ending with
        | .stalled =>
          Installing.lift (Program.ask .awaitCancel)
          Installing.fail .cancelled
        | .broken reason => refuse reason
        | .complete =>
          if reply.body.isEmpty then refuse "empty response body"
          else Installing.tell ("Downloaded " ++ toString reply.body.length ++ " bytes")

def unpack (dir asset : Path) : Installing Unit := do
  match Archive.ofName (asset.fileName?.getD "") with
  | .tarball =>
    Installing.command (.ofArgs "tar" ["-xzf", asset.text, "-C", dir.text])
    Installing.remove asset
  | .zip =>
    Installing.command (.ofArgs "unzip" ["-o", "-q", asset.text, "-d", dir.text])
    Installing.remove asset
  | .gzip =>
    Installing.command (.ofArgs "gzip" ["-df", asset.text])
    Installing.io (.allowRun (asset.withExtension ""))
  | .plain => Installing.io (.allowRun asset)

def install (dir : Path) : InstallMethod → Installing Unit
  | .binaryDownload source url => do
    match assetName? url with
    | none => Backend.failed source "asset URL has no file name"
    | some name =>
      let asset := dir / name
      download url asset
      match ← Installing.lift (Program.ask (.readFile asset)) with
      | .ok (_ :: _) => unpack dir asset
      | _ => Backend.failed source "downloaded asset is empty"
  | m => Installing.fail (.unsupportedSource (m.label ++ " install is not a release download"))

/-- Only archives are parts of a download; what is unpacked stays usable. -/
def cleanup (dir : Path) : Installing Unit := do
  match ← Installing.lift (Program.ask (.list dir)) with
  | .error .notFound => pure ()
  | .error e => Installing.fail (.io e)
  | .ok names =>
    for name in names do
      if Archive.ofName name ≠ .plain then Installing.remove (dir / name)

def backend (dir : Path) : Backend where
  tool := "github"
  isInstalled := pure true
  prepare := Installing.io (.makeDirs dir)
  install := install dir
  binaryPath name := dir / name
  binaryEnv := []
  cleanup := cleanup dir

end LanguageHost.Release
