import LanguageHost.Cli.Commands
import LanguageHost.Machine.Clock

/-!
The program on the machine that it runs on. Files and the environment are the real ones; accounts,
processes and the network are out of reach, so a home is one that the environment names, no tool can be
started and nobody replies.
-/
namespace LanguageHost.Main

def ioError : IO.Error → IoError
  | .noFileOrDirectory .. => .notFound
  | .permissionDenied .. => .permission
  | .alreadyExists .. => .exists
  | .inappropriateType .. => .isDirectory
  | .resourceBusy .. | .resourceVanished .. => .brokenPipe
  | _ => .invalidArgument

def attempt (act : IO α) : IO (Except IoError α) := do
  match ← act.toBaseIO with
  | .ok a => pure (.ok a)
  | .error e => pure (.error (ioError e))

def kindOf (info : IO.FS.Metadata) : FileKind :=
  match info.type with
  | .dir => .directory
  | .symlink => .link
  | _ => .file

/-- The first place on the search path that holds a program. -/
def findOn (name : String) : List String → IO (Option Path)
  | [] => pure none
  | dir :: rest => do
    let place := Path.mk dir / name
    if ← (System.mkFilePath [place.text]).pathExists then pure (some place) else findOn name rest

def findProgram (name : String) : IO (Option Path) := do
  if '/' ∈ name.toList then
    if ← (System.mkFilePath [name]).pathExists then pure (some ⟨name⟩) else pure none
  else findOn name (Text.split ':' ((← IO.getEnv "PATH").getD ""))

/-- The present, as the file system tells it. -/
def now : IO String := do
  let (_, place) ← IO.FS.createTempFile
  let info ← place.metadata
  IO.FS.removeFile place
  pure (Moment.mk info.modified.sec.toNat info.modified.nsec.toNat).text

def answer : Call β → IO β
  | .readFile p => attempt do return (← IO.FS.readBinFile p.text).toList
  | .writeFile p content => attempt (IO.FS.writeBinFile p.text ⟨content.toArray⟩)
  | .makeDirs p => attempt (IO.FS.createDirAll p.text)
  | .rename p q => attempt (IO.FS.rename p.text q.text)
  | .removeTree p => attempt (IO.FS.removeDirAll p.text)
  | .removeFile p => attempt (IO.FS.removeFile p.text)
  | .allowRun p => attempt (IO.setAccessRights p.text
      ⟨⟨true, true, true⟩, ⟨true, false, true⟩, ⟨true, false, true⟩⟩)
  | .list p => attempt do return sortStrings ((← (System.mkFilePath [p.text]).readDir).toList.map (·.fileName))
  | .kind p follow => attempt do
      let place := System.mkFilePath [p.text]
      return kindOf (← if follow then place.metadata else place.symlinkMetadata)
  | .canonical p => attempt do return ⟨(← IO.FS.realPath p.text).toString⟩
  | .envVar name => IO.getEnv name
  | .accountHome => pure none
  | .workingDir => do return ⟨(← IO.currentDir).toString⟩
  | .findProgram name => findProgram name
  | .run c _ => pure ⟨[], .error (.commandFailed c.display
      ("failed to start: " ++ IoError.message .permission))⟩
  | .tell _ => pure ()
  | .cancelled => pure false
  | .awaitCancel => pure ()
  | .fetch _ _ => pure none
  | .now => now

def runProgram : Program α → IO α
  | .done a => pure a
  | .call c next => do runProgram (next (← answer c))

/-- No server can be started. -/
def noServers : Launcher := fun language b _ =>
  .error (.config (language ++ " server " ++ b.path.text ++ " is not on PATH"))

def printReport (r : Cli.Report) : IO UInt32 := do
  for line in r.printed.out do IO.println line
  for line in r.printed.err do IO.eprintln line
  pure (.ofNat r.status)

def run (args : List String) : IO UInt32 := do
  match ← runProgram (Cli.start args) with
  | .ended r => printReport r
  | .symbols p => printReport (Cli.showSymbols (p.run noServers).1)

end LanguageHost.Main

def main (args : List String) : IO UInt32 := LanguageHost.Main.run args
