import LanguageHost.Machine.Host

/-!
Scripted tools: programs in one directory whose behaviour is a list of rules. The first rule whose text
starts the command line says what the tool does; without one it answers as a plain version of itself.
-/
namespace LanguageHost

structure ToolRule where
  start : String
  makeDirs : List Path
  remove : List Path
  write : List (Path × Octets)
  out : List Octets
  err : List Octets
  ending : Ending

/-- Tools in a directory, and their rules. -/
structure Toolbox where
  bin : Path
  rules : List ToolRule

namespace Toolbox

/-- The name a tool is called by: its own, or the whole path when it is called outside the directory. -/
def calledName (t : Toolbox) (name : String) : String :=
  match Text.afterStart? (t.bin.text ++ "/").toList name.toList with
  | some rest => String.ofList rest
  | none => name

def argv (t : Toolbox) (inv : Invocation) : List String :=
  match inv.argv with
  | [] => []
  | name :: args => t.calledName name :: args

def line (text : String) : Octets := Utf8.ofString text ++ [10]

/-- What a tool prints when no rule says otherwise. -/
def greeting (argv : List String) : List Octets :=
  match argv with
  | ["npm", "--version"] => [line "10.8.2"]
  | ["cargo", "--version"] => [line "cargo 1.80.1 (376290515 2024-07-16)"]
  | ["go", "version"] => [line "go version go1.22.5 linux/amd64"]
  | ["python3", "--version"] => [line "Python 3.11.9"]
  | ["gem", "--version"] => [line "3.5.16"]
  | ["git", "--version"] => [line "git version 2.45.2"]
  | _ => []

def ToolRule.performance (r : ToolRule) : Performance where
  acts := r.makeDirs.map .makeDirs ++ r.remove.map .remove ++
    r.write.map (fun (p, content) => .write p content) ++
    r.out.map (fun bs => .out (bs ++ [10])) ++ r.err.map (fun bs => .err (bs ++ [10]))
  ending := r.ending

def programs (t : Toolbox) : Programs := fun inv _ =>
  let argv := t.argv inv
  match t.rules.find? fun r => Text.startsWith r.start (String.intercalate " " argv) with
  | some r => ToolRule.performance r
  | none =>
    let acts := match argv with
      | ["python3", "-m", "venv", "venv"] => [.link ⟨"venv/bin/python"⟩ inv.file]
      | _ => (greeting argv).map .out
    ⟨acts, .exit 0⟩

end Toolbox

end LanguageHost
