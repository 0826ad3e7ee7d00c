import LanguageHost.Path

/-!
What can go wrong, by cause, and the text that tells it.
-/
namespace LanguageHost

/-- The reasons for which the operating system refuses a file operation. -/
inductive IoError where
  | notFound | permission | exists | notDirectory | isDirectory | notEmpty | tooManyLinks
  | invalidArgument | nameTooLong | brokenPipe
  /-- a text file that is not UTF-8 -/
  | notUtf8
  /-- a path that the zero character would cut short -/
  | zeroInPath
  /-- the same in what a process is given -/
  | zeroInCommand
deriving DecidableEq, Inhabited, Repr

def IoError.message : IoError → String
  | .notFound => "No such file or directory (os error 2)"
  | .permission => "Permission denied (os error 13)"
  | .exists => "File exists (os error 17)"
  | .notDirectory => "Not a directory (os error 20)"
  | .isDirectory => "Is a directory (os error 21)"
  | .invalidArgument => "Invalid argument (os error 22)"
  | .brokenPipe => "Broken pipe (os error 32)"
  | .nameTooLong => "File name too long (os error 36)"
  | .notEmpty => "Directory not empty (os error 39)"
  | .tooManyLinks => "Too many levels of symbolic links (os error 40)"
  | .notUtf8 => "stream did not contain valid UTF-8"
  | .zeroInPath => "file name contained an unexpected NUL byte"
  | .zeroInCommand => "nul byte found in provided data"

inductive Error where
  | config (text : String)
  | toolMissing (tool : String)
  | installFailed (package reason : String)
  | download (url reason : String)
  | protocol (text : String)
  | crashed (text : String)
  | timeout (seconds : Nat)
  | unsupportedLanguage (text : String)
  | unsupportedSource (text : String)
  | notRunning (language : String)
  | alreadyRunning (language : String)
  | installing (package : String)
  | cancelled
  | commandFailed (command status : String)
  | badPath (path : Path)
  | io (cause : IoError)
  | json (text : String)
  | toml (text : String)
deriving DecidableEq, Inhabited, Repr

def toolHint (tool : String) : String :=
  match tool with
  | "npm" => "Install Node.js from https://nodejs.org to get npm."
  | "cargo" => "Install Rust via https://rustup.rs to get cargo."
  | "go" => "Install Go from https://go.dev/dl."
  | "python3" | "python" => "Install Python 3 with the venv module."
  | "gem" => "Install Ruby to get the gem command."
  | "git" => "Install git from https://git-scm.com."
  | _ => "Install it and make sure it is on PATH."

namespace Error

def message : Error → String
  | .config text => "Configuration error: " ++ text
  | .toolMissing tool => tool ++ " is not installed. " ++ toolHint tool
  | .installFailed package reason => "Installation of " ++ package ++ " failed: " ++ reason
  | .download url reason => "Download of " ++ url ++ " failed: " ++ reason
  | .protocol text => "LSP protocol error: " ++ text
  | .crashed text => "LSP server crashed: " ++ text
  | .timeout seconds => "Request timeout after " ++ toString seconds ++ "s"
  | .unsupportedLanguage text => "Language not supported: " ++ text
  | .unsupportedSource text => "Unsupported package source: " ++ text
  | .notRunning language => "No language server running for " ++ language
  | .alreadyRunning language => "A language server for " ++ language ++ " is already running"
  | .installing package => "An installation of " ++ package ++ " is already in progress"
  | .cancelled => "Operation cancelled"
  | .commandFailed command status => "Command `" ++ command ++ "` failed: " ++ status
  | .badPath path => "Invalid file path: " ++ path.text
  | .io cause => "IO error: " ++ cause.message
  | .json text => "JSON error: " ++ text
  | .toml text => "TOML error: " ++ text

/-- Whether the same operation may succeed when it is tried again. -/
def retryable : Error → Bool
  | .download _ _ | .timeout _ => true
  | _ => false

end Error

/-- The servers that could not be stopped, with the reason of each. -/
structure ShutdownErrors where
  failures : List (String × Error)
deriving DecidableEq, Repr

def ShutdownErrors.message (e : ShutdownErrors) : String :=
  toString e.failures.length ++ " language server(s) failed to stop"

end LanguageHost
