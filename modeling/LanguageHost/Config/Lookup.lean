import LanguageHost.Config.Catalogue
import LanguageHost.Config.User
import LanguageHost.Error

/-!
Finding the registry entry for a language, a file or a name. The user's preference for a language goes
before the defaults, and these before the registry.
-/
namespace LanguageHost

/-- The user's configuration over the catalogue. -/
structure Lookup where
  user : UserConfig

namespace Lookup

/-- Seconds that a request may take when the user sets none. -/
def defaultTimeout : Nat := 30

/-- All entries, those of the defaults first. -/
def entries : List RegistryEntry := (Catalogue.defaults ++ Catalogue.registry).map Prod.snd

def byName (name : String) : Except Error RegistryEntry :=
  match entries.find? fun e => e.name == name with
  | some e => .ok e
  | none => .error (.config ("LSP '" ++ name ++ "' not found"))

def byExtension (ending : String) : Except Error RegistryEntry :=
  match entries.find? fun e => e.extensions.contains ending with
  | some e => .ok e
  | none => .error (.unsupportedLanguage ("No LSP found for file extension '." ++ ending ++ "'"))

def byFile (file : Path) : Except Error RegistryEntry :=
  match file.extension? with
  | some ending => byExtension ending
  | none => .error (.badPath file)

def byLanguage (l : Lookup) (language : String) : Except Error RegistryEntry :=
  match l.user.preferred.get? language with
  | some name => byName name
  | none =>
    match Catalogue.defaults.get? language, Catalogue.registry.get? language with
    | some e, _ => .ok e
    | none, some e => .ok e
    | none, none => .error (.unsupportedLanguage ("No LSP found for language '" ++ language ++ "'"))

/-- Each entry once, in order of the names. -/
def available : List RegistryEntry :=
  (Table.ofList (entries.reverse.map fun e => (e.name, e))).map Prod.snd

def requestTimeout (l : Lookup) : Nat := l.user.settings.requestTimeout.getD defaultTimeout

def startPolicy (l : Lookup) : StartPolicy := l.user.settings.startPolicy.getD .reject

end Lookup

end LanguageHost
