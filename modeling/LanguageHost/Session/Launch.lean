import LanguageHost.Machine.Host
import LanguageHost.Session.Fleet

/-!
Servers as processes: the launcher that starts a configured program on a machine, and what it says when
the program is not there or cannot be started.
-/
namespace LanguageHost

/-- The command that starts a server for a session: in the root of its workspace. -/
def ServerBinary.command (b : ServerBinary) (root : Path) : Command :=
  ⟨b.path.text, b.args, some root, b.env⟩

/-- Whether the program of a server is there: a file at an absolute path, or else one that is found. -/
def Host.locateServer (h : Host) (language : String) (b : ServerBinary) : Except Error Unit :=
  if b.path.isAbsolute then
    if h.files.exists? b.path then .ok ()
    else .error (.config (language ++ " server not found at " ++ b.path.text))
  else match h.programFile h.cwd h.env b.path.text with
    | .ok _ => .ok ()
    | .error _ => .error (.config (language ++ " server " ++ b.path.text ++ " is not on PATH"))

/-- Starts servers as processes; `speaker` says how a started program behaves as a server. -/
def Host.launcher (h : Host) (speaker : Invocation → Peer) : Launcher := fun language b session => do
  h.locateServer language b
  match h.invocation (b.command session.root) with
  | .error e => .error (.config ("Failed to spawn " ++ b.path.text ++ ": " ++ e.message))
  | .ok inv => .ok ⟨speaker inv, some inv⟩

end LanguageHost
