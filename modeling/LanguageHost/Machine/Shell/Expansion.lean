import LanguageHost.Machine.Shell.Script
import LanguageHost.Machine.Shell.State

/-!
What the words of a script stand for: parameters, sums, and the fields that blanks make of both.
-/
namespace LanguageHost.Shell

/-- The number of the shell's process. -/
def processNumber : String := "4242"

def value? (s : State) (name : String) : Option (List Char) :=
  match name with
  | "$" => some processNumber.toList
  | "?" => some (toString s.status).toList
  | "#" => some ['0']
  | "0" => some "sh".toList
  | "PWD" => some s.cwd.text.toList
  | _ => (s.vars.get? name).map String.toList

/-- What a parameter stands for. A word after its name is taken when the parameter has no value, or when
it has one; a colon makes an empty value count as none. -/
def parameter (s : State) (text : String) : List Char :=
  let cs := text.toList
  let name := cs.takeWhile isNameChar
  let filled := (value? s (String.ofList name)).filter (!·.isEmpty)
  match name, cs.drop name.length with
  | [], '#' :: name@(_ :: _) =>
    (toString ((value? s (String.ofList name)).getD []).length).toList
  | [], _ | _ :: _, [] => (value? s text).getD []
  | _, ':' :: '-' :: word | _, ':' :: '=' :: word => filled.getD word
  | _, ':' :: '+' :: word => if filled.isSome then word else []
  | _, '-' :: word | _, '=' :: word => (value? s (String.ofList name)).getD word
  | _, '+' :: word => if (value? s (String.ofList name)).isSome then word else []
  | _, _ => (value? s (String.ofList name)).getD []

/-- An integer, with a sign or without. -/
def integer? (cs : List Char) : Option Int :=
  match cs with
  | '-' :: ds => if ds.isEmpty ∨ !ds.all Text.isDigit then none else some (-(Text.numeral 10 ds))
  | ds => if ds.isEmpty ∨ !ds.all Text.isDigit then none else some (Text.numeral 10 ds)

mutual

/-- A number, a name, or something in brackets. -/
def factor (s : State) (fuel : Nat) (cs : List Char) : Int × List Char :=
  match fuel, cs.dropWhile Text.isBlank with
  | 0, cs => (0, cs)
  | fuel + 1, '-' :: rest =>
    let (n, rest) := factor s fuel rest
    (-n, rest)
  | fuel + 1, '(' :: rest =>
    let (n, rest) := term s fuel rest
    let (n, rest) := sums s fuel n rest
    (n, (rest.dropWhile Text.isBlank).drop 1)
  | fuel + 1, '$' :: rest => factor s fuel rest
  | _ + 1, c :: rest =>
    if Text.isDigit c then
      ((Text.numeral 10 ((c :: rest).takeWhile Text.isDigit) : Nat), (c :: rest).dropWhile Text.isDigit)
    else if isNameStart c then
      let name := String.ofList ((c :: rest).takeWhile isNameChar)
      ((integer? (parameter s name)).getD 0, (c :: rest).dropWhile isNameChar)
    else (0, rest)
  | _ + 1, [] => (0, [])

def term (s : State) (fuel : Nat) (cs : List Char) : Int × List Char :=
  match fuel with
  | 0 => (0, [])
  | fuel + 1 =>
    let (n, rest) := factor s fuel cs
    products s fuel n rest

def products (s : State) (fuel : Nat) (n : Int) (cs : List Char) : Int × List Char :=
  match fuel, cs.dropWhile Text.isBlank with
  | 0, cs => (n, cs)
  | fuel + 1, c :: rest =>
    if c = '*' ∨ c = '/' ∨ c = '%' then
      let (m, rest) := factor s fuel rest
      let n := if c = '*' then n * m else if c = '/' then n.tdiv m else n.tmod m
      products s fuel n rest
    else (n, c :: rest)
  | _ + 1, [] => (n, [])

def sums (s : State) (fuel : Nat) (n : Int) (cs : List Char) : Int × List Char :=
  match fuel, cs.dropWhile Text.isBlank with
  | 0, cs => (n, cs)
  | fuel + 1, c :: rest =>
    if c = '+' ∨ c = '-' then
      let (m, rest) := term s fuel rest
      sums s fuel (if c = '+' then n + m else n - m) rest
    else (n, c :: rest)
  | _ + 1, [] => (n, [])

end

/-- The value of a sum, written out. -/
def sumText (s : State) (cs : List Char) : List Char :=
  let fuel := 2 * cs.length + 2
  let (n, rest) := term s fuel cs
  (toString (sums s fuel n rest).1).toList

/-- Fields under construction: the one that is open, and those before it in reverse. -/
structure Fields where
  done : List (List Char)
  open? : Option (List Char)

def Fields.add (f : Fields) (cs : List Char) : Fields :=
  { f with open? := some (f.open?.getD [] ++ cs) }

/-- Adds text that is split at blanks. -/
def Fields.addSplit (f : Fields) (cs : List Char) : Fields :=
  cs.foldl (fun f c =>
    if c = ' ' ∨ c = '\t' ∨ c = '\n' then
      match f.open? with
      | some field => ⟨field :: f.done, none⟩
      | none => f
    else f.add [c]) f

/-- The fields that a word stands for, once the commands in it have run. -/
def expand (s : State) (w : Word) : List String :=
  let f := w.foldl (fun f p =>
    match p with
    | .text cs _ => f.add cs
    | .parameter name true => f.add (parameter s name)
    | .parameter name false => f.addSplit (parameter s name)
    | .sum e true => f.add (sumText s e)
    | .sum e false => f.addSplit (sumText s e)
    | .output cs true => f.add cs
    | .output cs false => f.addSplit cs
    | .command _ _ => f) (⟨[], none⟩ : Fields)
  ((f.open?.toList ++ f.done).reverse).map String.ofList

/-- The text that a word stands for when it is not split. -/
def expandWhole (s : State) (w : Word) : String :=
  String.ofList (w.flatMap fun
    | .text cs _ => cs
    | .parameter name _ => parameter s name
    | .sum e _ => sumText s e
    | .output cs _ => cs
    | .command _ _ => [])

def assignment? (w : Word) : Option (String × Word) :=
  let name := (w.takeWhile fun p => (p.plain?.getD []).any isNameChar).flatMap
    fun p => p.plain?.getD []
  match name, w.drop name.length with
  | c :: _, .text ['='] false :: value =>
    if isNameStart c then some (String.ofList name, value) else none
  | _, _ => none

/-- Runs the commands that stand in a word, one after the other, and puts in what they print. -/
def Word.fill (run : State → List Char → State × List Char) (s : State) : Word → State × Word
  | [] => (s, [])
  | .command script quoted :: rest =>
    let (s, printed) := run s script
    let (s, rest) := fill run s rest
    (s, .output printed quoted :: rest)
  | p :: rest =>
    let (s, rest) := fill run s rest
    (s, p :: rest)

def fillAll (run : State → List Char → State × List Char) (s : State) : List Word → State × List Word
  | [] => (s, [])
  | w :: rest =>
    let (s, w) := w.fill run s
    let (s, rest) := fillAll run s rest
    (s, w :: rest)

end LanguageHost.Shell
