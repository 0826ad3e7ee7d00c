import LanguageHost.Path
import LanguageHost.Text.Blank

/-!
The command line: options that hold everywhere, a verb, and what belongs to it. Options may stand before
and after the verb; one after it counts more than the same one before it.
-/
namespace LanguageHost.Cli

/-- What the program is asked to do. -/
inductive Request where
  | parse (id : String)
  | list
  | install (package : String)
  | enable (language : String)
  | disable (language : String)
  | symbols (file : Path) (language : Option String)
deriving DecidableEq, Repr

structure Arguments where
  workspace : Option Path
  logLevel : Option String
  logFile : Option Path
  request : Request
deriving DecidableEq, Repr

inductive Usage where
  | run (a : Arguments)
  | help
  | version
  /-- it is not understood -/
  | refused
deriving DecidableEq, Repr

inductive Flag where
  | workspace | logLevel | logFile | language | help | version
deriving DecidableEq, Repr

inductive Verb where
  | parse | list | install | enable | disable | symbols
deriving DecidableEq, Repr

namespace Verb

def all : List Verb := [parse, list, install, enable, disable, symbols]

def word : Verb → String
  | parse => "parse"
  | list => "list"
  | install => "install"
  | enable => "enable"
  | disable => "disable"
  | symbols => "symbols"

def ofWord? (s : String) : Option Verb := all.find? fun v => v.word == s

/-- How many words follow the verb. -/
def arity : Verb → Nat
  | list => 0
  | _ => 1

end Verb

namespace Flag

/-- Whether a flag may stand after a verb, or before any. -/
def fits (verb : Option Verb) : Flag → Bool
  | workspace | logLevel | logFile | help => true
  | language => verb == some .symbols
  | version => verb.isNone

def long? : String → Option Flag
  | "workspace" => some workspace
  | "log-level" => some logLevel
  | "log-file" => some logFile
  | "language" => some language
  | "help" => some help
  | "version" => some version
  | _ => none

def short? : Char → Option Flag
  | 'w' => some workspace
  | 'l' => some logLevel
  | 'h' => some help
  | 'V' => some version
  | _ => none

/-- Whether a value is acceptable; a path must not be empty. -/
def accepts (value : String) : Flag → Bool
  | workspace | logFile => value ≠ ""
  | _ => true

end Flag

/-- Options with their values, each at most once. -/
abbrev Options := List (Flag × String)

/-- A command line as far as it has been read. -/
structure Reading where
  verb : Option Verb
  /-- the options before the verb -/
  outer : Options
  /-- the options after the verb -/
  inner : Options
  /-- the words after the verb -/
  words : List String
deriving DecidableEq, Repr

namespace Reading

def start : Reading := ⟨none, [], [], []⟩

def option? (r : Reading) (f : Flag) (value : String) : Option Reading :=
  let here := if r.verb.isNone then r.outer else r.inner
  if !f.accepts value || (here.lookup f).isSome then none
  else if r.verb.isNone then some { r with outer := (f, value) :: r.outer }
  else some { r with inner := (f, value) :: r.inner }

def word? (r : Reading) (s : String) : Option Reading :=
  match r.verb with
  | none => none
  | some v =>
    if v.arity ≤ r.words.length || (v == .symbols && s == "") then none
    else some { r with words := r.words ++ [s] }

/-- The value of an option; what stands after the verb counts more. -/
def value? (r : Reading) (f : Flag) : Option String := (r.inner.lookup f).or (r.outer.lookup f)

def request? (r : Reading) : Option Request :=
  match r.verb, r.words with
  | some .parse, [id] => some (.parse id)
  | some .list, [] => some .list
  | some .install, [package] => some (.install package)
  | some .enable, [language] => some (.enable language)
  | some .disable, [language] => some (.disable language)
  | some .symbols, [file] => some (.symbols ⟨file⟩ (r.value? .language))
  | _, _ => none

def finish (r : Reading) : Usage :=
  match r.request? with
  | none => .refused
  | some request => .run ⟨(r.value? .workspace).map Path.mk, r.value? .logLevel,
      (r.value? .logFile).map Path.mk, request⟩

end Reading

/-- What one argument is. -/
inductive Token where
  /-- only words come after this -/
  | separator
  | long (name : String) (value : Option String)
  | short (flag : Char) (rest : List Char)
  | word (s : String)
deriving DecidableEq, Repr

def Token.ofText (s : String) : Token :=
  match s.toList with
  | ['-', '-'] => .separator
  | '-' :: '-' :: rest =>
    match Text.cut? '=' rest with
    | some (name, value) => .long (String.ofList name) (some (String.ofList value))
    | none => .long (String.ofList rest) none
  | '-' :: c :: rest => .short c rest
  | _ => .word s

/-- What an option asks for: an end, a value that is given with it, or the next argument. -/
inductive Demand where
  | stop (u : Usage)
  | given (f : Flag) (value : String)
  | next (f : Flag)

def demand (r : Reading) (f : Option Flag) (value : Option String) : Demand :=
  match f with
  | none => .stop .refused
  | some f =>
    if !f.fits r.verb then .stop .refused
    else match f, value with
      | .help, none => .stop .help
      | .version, none => .stop .version
      | .help, some _ | .version, some _ => .stop .refused
      | f, some v => .given f v
      | f, none => .next f

/-- The value that stands in one argument with a short flag. -/
def attached : List Char → Option String
  | [] => none
  | '=' :: rest => some (String.ofList rest)
  | rest => some (String.ofList rest)

/-- A short flag that takes no value may have others behind it; they come too late. -/
def shortDemand (r : Reading) (c : Char) (rest : List Char) : Demand :=
  match Flag.short? c with
  | some .help => demand r (some .help) none
  | some .version => demand r (some .version) none
  | f => demand r f (attached rest)

def readWords (r : Reading) : List String → Usage
  | [] => r.finish
  | s :: rest =>
    match r.word? s with
    | none => .refused
    | some r => readWords r rest

/-- What asking for help about verbs comes to. -/
def helpOn : List String → Usage
  | [] => .help
  | [s] => if s = "help" ∨ (Verb.ofWord? s).isSome then .help else .refused
  | _ => .refused

/-- Reads arguments one after the other; `pending` is a flag that waits for its value. -/
def readFrom (r : Reading) (pending : Option Flag) : List String → Usage
  | [] => if pending.isSome then .refused else r.finish
  | s :: rest =>
    match pending, Token.ofText s with
    | some f, .word s =>
      match r.option? f s with
      | none => .refused
      | some r => readFrom r none rest
    | some _, _ => .refused
    | none, .separator => readWords r rest
    | none, .word s =>
      match r.verb with
      | some _ =>
        match r.word? s with
        | none => .refused
        | some r => readFrom r none rest
      | none =>
        match Verb.ofWord? s with
        | some v => readFrom { r with verb := some v } none rest
        | none => if s = "help" then helpOn rest else .refused
    | none, .long name value => follow (demand r (Flag.long? name) value) rest
    | none, .short c cs => follow (shortDemand r c cs) rest
where
  /-- Goes on after an option. -/
  follow (d : Demand) (rest : List String) : Usage :=
    match d with
    | .stop u => u
    | .next f => readFrom r (some f) rest
    | .given f value =>
      match r.option? f value with
      | none => .refused
      | some r => readFrom r none rest

def Usage.ofArguments (args : List String) : Usage := readFrom .start none args

end LanguageHost.Cli
