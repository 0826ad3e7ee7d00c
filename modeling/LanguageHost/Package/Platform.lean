import LanguageHost.Text.Blank

/-!
Platforms and the file names of release assets, in which `{os}`, `{arch}`, `{target}` and `{version}`
are replaced. `TemplatePart.ofChars` cuts a template into its parts; `Platform.expand` fills them in.
-/
namespace LanguageHost

structure Platform where
  os : String
  arch : String
deriving DecidableEq, Inhabited, Repr

inductive TemplateError where
  | unknownPlaceholder (name : String)
  | unterminated
  | unsupported (platform : Platform)
deriving DecidableEq, Repr

def TemplateError.message : TemplateError → String
  | .unknownPlaceholder name => "unknown placeholder \x7b" ++ name ++ "\x7d"
  | .unterminated => "unterminated placeholder"
  | .unsupported p => "no release target for " ++ p.os ++ "/" ++ p.arch

inductive TemplatePart where
  | literal (text : List Char)
  | placeholder (name : List Char)
  /-- an opening brace that nothing closes -/
  | unclosed
deriving DecidableEq, Repr

/-- The parts of a template from the left. A placeholder ends at the next closing brace. -/
def TemplatePart.ofChars (template : List Char) : List TemplatePart :=
  match h : Text.cut? '{' template with
  | none => [.literal template]
  | some (text, after) =>
    match h' : Text.cut? '}' after with
    | none => [.literal text, .unclosed]
    | some (name, rest) =>
      have : rest.length < template.length :=
        Nat.lt_trans (Text.cut?_shorter h') (Text.cut?_shorter h)
      .literal text :: .placeholder name :: TemplatePart.ofChars rest
termination_by template.length

namespace Platform

/-- The operating system as release assets name it. -/
def osName (p : Platform) : Except TemplateError String :=
  match p.os with
  | "linux" => .ok "linux"
  | "macos" => .ok "darwin"
  | "windows" => .ok "windows"
  | _ => .error (.unsupported p)

def archName (p : Platform) : Except TemplateError String :=
  match p.arch with
  | "x86_64" => .ok "x64"
  | "aarch64" => .ok "arm64"
  | "x86" => .ok "x86"
  | _ => .error (.unsupported p)

def targetTriple (p : Platform) : Except TemplateError String :=
  match p.os, p.arch with
  | "linux", "x86_64" => .ok "x86_64-unknown-linux-gnu"
  | "linux", "aarch64" => .ok "aarch64-unknown-linux-gnu"
  | "macos", "x86_64" => .ok "x86_64-apple-darwin"
  | "macos", "aarch64" => .ok "aarch64-apple-darwin"
  | "windows", "x86_64" => .ok "x86_64-pc-windows-msvc"
  | "windows", "aarch64" => .ok "aarch64-pc-windows-msvc"
  | _, _ => .error (.unsupported p)

/-- What a placeholder stands for. -/
def placeholder (p : Platform) (version name : String) : Except TemplateError String :=
  match name with
  | "os" => p.osName
  | "arch" => p.archName
  | "target" => p.targetTriple
  | "version" => .ok version
  | _ => .error (.unknownPlaceholder name)

def fill (p : Platform) (version : String) : TemplatePart → Except TemplateError String
  | .literal text => .ok (String.ofList text)
  | .placeholder name => p.placeholder version (String.ofList name)
  | .unclosed => .error .unterminated

/-- The template with its placeholders replaced; the leftmost one that cannot be decides the error. -/
def expand (p : Platform) (template version : String) : Except TemplateError String := do
  let texts ← (TemplatePart.ofChars template.toList).mapM (p.fill version)
  pure (String.join texts)

end Platform

end LanguageHost
