import LanguageHost.Text.Blank
import LanguageHost.Decimal.Binary
import LanguageHost.Json.Basic

/-!
The pieces of TOML 1.0 that hold no other value: blanks and comments, keys, strings, numbers, dates and
times. A piece is read off the front of the text; `none` refuses it.
-/
namespace LanguageHost.Toml

/-- Reading from the front of a text. -/
abbrev Scan (α : Type) := StateT (List Char) Option α

namespace Scan

def fail : Scan α := fun _ => none

def peek : Scan (Option Char) := return (← get).head?

def char (c : Char) : Scan Unit := do
  match ← get with
  | d :: rest => if c = d then set rest else fail
  | [] => fail

def word (s : String) : Scan Unit := do
  match Text.afterStart? s.toList (← get) with
  | some rest => set rest
  | none => fail

def any : Scan Char := do
  match ← get with
  | c :: rest => set rest; pure c
  | [] => fail

def takeWhile (p : Char → Bool) : Scan (List Char) := do
  let cs ← get
  set (cs.dropWhile p)
  pure (cs.takeWhile p)

/-- The first reading that succeeds, each from the same place. -/
def orElse (a b : Scan α) : Scan α := fun cs =>
  match a cs with
  | some r => some r
  | none => b cs

/-- The reading, or nothing when it fails. -/
def maybe (a : Scan α) : Scan (Option α) := fun cs =>
  match a cs with
  | some (x, rest) => some (some x, rest)
  | none => some (none, cs)

/-- Whether the text goes on with `s`; nothing is taken. -/
def ahead (s : String) : Scan Bool := return (Text.afterStart? s.toList (← get)).isSome

end Scan

open Scan

def isSpace (c : Char) : Bool := c == ' ' || c == '\t'

def spaces : Scan Unit := discard (takeWhile isSpace)

/-- Whether a character may stand in a comment or, escapes aside, in a string. -/
def isPlain (c : Char) : Bool := c == '\t' || (0x20 ≤ c.toNat && c.toNat != 0x7F)

def comment : Scan Unit := do
  if (← peek) = some '#' then discard (takeWhile isPlain)

/-- A line feed, alone or after a carriage return. -/
def newline : Scan Unit := orElse (char '\n') (word "\r\n")

/-- What ends a line: blanks, a comment, and a newline or the end of the text. -/
def lineEnd : Scan Unit := do
  spaces
  comment
  if !(← get).isEmpty then newline

/-- Blanks, comments and newlines between the items of an array. -/
def gap : Nat → Scan Unit
  | 0 => fail
  | fuel + 1 => do
    spaces
    comment
    match ← maybe newline with
    | some () => gap fuel
    | none => pure ()

def scalar (digits : List Char) : Scan Char :=
  let n := Text.numeral 16 digits
  if n.isValidChar then pure (Char.ofNat n) else fail

def hexDigits : Nat → Scan (List Char)
  | 0 => pure []
  | n + 1 => do
    let c ← any
    if Text.isHexDigit c then return c :: (← hexDigits n) else fail

/-- The character of an escape; the backslash is already taken. -/
def escape : Scan Char := do
  match ← any with
  | 'b' => pure '\x08'
  | 't' => pure '\t'
  | 'n' => pure '\n'
  | 'f' => pure '\x0c'
  | 'r' => pure '\r'
  | '"' => pure '"'
  | '\\' => pure '\\'
  | 'u' => hexDigits 4 >>= scalar
  | 'U' => hexDigits 8 >>= scalar
  | _ => fail

/-- The rest of a string of one line. -/
def basicRest (done : List Char) : Nat → Scan String
  | 0 => fail
  | fuel + 1 => do
    match ← any with
    | '"' => pure (String.ofList done.reverse)
    | '\\' => basicRest ((← escape) :: done) fuel
    | c => if isPlain c then basicRest (c :: done) fuel else fail

def literalRest : Scan String := do
  let cs ← takeWhile fun c => isPlain c && c != '\''
  char '\''
  pure (String.ofList cs)

/-- Up to two more quotes in front of the three that end a string of several lines. -/
def closingQuotes (quote : Char) : Scan (Option (List Char)) := do
  let quotes := (← get).takeWhile (· = quote)
  if quotes.length < 3 then pure none
  else
    let extra := min (quotes.length - 3) 2
    set ((← get).drop (extra + 3))
    pure (some (List.replicate extra quote))

/-- Blanks and newlines. -/
def blankLines : Nat → Scan Unit
  | 0 => fail
  | fuel + 1 => do
    spaces
    match ← maybe newline with
    | some () => blankLines fuel
    | none => pure ()

/-- A backslash that ends a line takes all blanks and newlines after it. -/
def lineContinuation : Scan Unit := do
  spaces
  newline
  blankLines ((← get).length + 1)

/-- The rest of a string of several lines; only between double quotes is a backslash special. -/
def multilineRest (quote : Char) (done : List Char) : Nat → Scan String
  | 0 => fail
  | fuel + 1 => do
    match ← closingQuotes quote with
    | some extra => pure (String.ofList (done.reverse ++ extra))
    | none =>
      match ← maybe newline with
      | some () => multilineRest quote ('\n' :: done) fuel
      | none =>
        let c ← any
        if c = '\\' ∧ quote = '"' then
          match ← maybe lineContinuation with
          | some () => multilineRest quote done fuel
          | none => multilineRest quote ((← escape) :: done) fuel
        else if isPlain c then multilineRest quote (c :: done) fuel
        else fail

def string : Scan String := do
  let fuel := (← get).length + 1
  if ← ahead "\"\"\"" then
    word "\"\"\""
    discard (maybe newline)
    multilineRest '"' [] fuel
  else if ← ahead "'''" then
    word "'''"
    discard (maybe newline)
    multilineRest '\'' [] fuel
  else
    match ← any with
    | '"' => basicRest [] fuel
    | '\'' => literalRest
    | _ => fail

def isBareKey (c : Char) : Bool :=
  Text.isDigit c || ('a' ≤ c && c ≤ 'z') || ('A' ≤ c && c ≤ 'Z') || c == '_' || c == '-'

def simpleKey : Scan String := do
  match ← peek with
  | some '"' => char '"'; basicRest [] ((← get).length + 1)
  | some '\'' => char '\''; literalRest
  | _ =>
    let cs ← takeWhile isBareKey
    if cs.isEmpty then fail else pure (String.ofList cs)

/-- The keys that dots join, with blanks around the dots. -/
def key : Nat → Scan (List String)
  | 0 => fail
  | fuel + 1 => do
    spaces
    let k ← simpleKey
    spaces
    if (← peek) = some '.' then
      char '.'
      return k :: (← key fuel)
    else pure [k]

/-- At least one digit, with single underscores between digits; the digits alone are the answer. -/
def digits (p : Char → Bool) : Nat → Scan (List Char)
  | 0 => fail
  | fuel + 1 => do
    let cs ← takeWhile p
    if cs.isEmpty then fail
    else
      match ← get with
      | '_' :: c :: _ =>
        if p c then
          char '_'
          return cs ++ (← digits p fuel)
        else pure cs
      | _ => pure cs

def sign : Scan Bool := do
  match ← peek with
  | some '-' => char '-'; pure true
  | some '+' => char '+'; pure false
  | _ => pure false

/-- A sign and digits, with no zero in front of others. -/
def decimalInt : Scan (Bool × List Char) := do
  let negative ← sign
  match ← peek with
  | some '0' => char '0'; pure (negative, ['0'])
  | _ => return (negative, ← digits Text.isDigit ((← get).length + 1))

def isOctal (c : Char) : Bool := '0' ≤ c && c ≤ '7'

def isBinary (c : Char) : Bool := c == '0' || c == '1'

def inRange (n : Int) : Scan Json :=
  if -0x8000000000000000 ≤ n ∧ n ≤ 0x7fffffffffffffff then pure (.int n) else fail

def integer : Scan Json := do
  let based (mark : String) (p : Char → Bool) (base : Nat) : Scan Json := do
    word mark
    inRange (Text.numeral base (← digits p ((← get).length + 1)))
  if ← ahead "0x" then based "0x" Text.isHexDigit 16
  else if ← ahead "0o" then based "0o" isOctal 8
  else if ← ahead "0b" then based "0b" isBinary 2
  else
    let (negative, ds) ← decimalInt
    let n : Int := Text.numeral 10 ds
    inRange (if negative then -n else n)

def exponent : Scan (Bool × Nat) := do
  let c ← any
  if c = 'e' ∨ c = 'E' then
    let down ← sign
    return (down, Text.numeral 10 (← digits Text.isDigit ((← get).length + 1)))
  else fail

def fraction : Scan (List Char) := do
  char '.'
  digits Text.isDigit ((← get).length + 1)

/-- The float nearest to the decimal. Above the range a number is refused, and below it one is the negative
infinity. A power far beyond the range decides alone. -/
def nearestFloat (negative : Bool) (ds : List Char) (power : Int) : Scan Binary64 :=
  let n := Text.numeral 10 ds
  let beyond : Scan Binary64 := if negative then pure (.infinity true) else fail
  if n = 0 then pure (.zero negative)
  else if power + ds.length < -400 then pure (.zero negative)
  else if power > 400 then beyond
  else match BinaryFormat.double.roundDecimal? n power with
    | some s => pure (.ofScaled negative s)
    | none => beyond

def float : Scan Json := do
  let special : Scan Json := do
    let negative ← sign
    if ← ahead "inf" then word "inf"; pure (.float (.infinity negative))
    else word "nan"; pure (.float .nan)
  let plain : Scan Json := do
    let (negative, whole) ← decimalInt
    let frac ← maybe fraction
    let exp ← maybe exponent
    if frac.isNone ∧ exp.isNone then fail
    else
      let f := frac.getD []
      let e : Int := match exp with
        | some (true, n) => -n
        | some (false, n) => n
        | none => 0
      return .float (← nearestFloat negative (whole ++ f) (e - f.length))
  orElse plain special

def twoDigits (low high : Nat) : Scan (List Char) := do
  let a ← any
  let b ← any
  let n := Text.numeral 10 [a, b]
  if Text.isDigit a ∧ Text.isDigit b ∧ low ≤ n ∧ n ≤ high then pure [a, b] else fail

def daysIn (year month : Nat) : Nat :=
  if month = 2 then
    if year % 4 = 0 ∧ (year % 100 ≠ 0 ∨ year % 400 = 0) then 29 else 28
  else if month ∈ [4, 6, 9, 11] then 30 else 31

def date : Scan (List Char) := do
  let a ← twoDigits 0 99
  let b ← twoDigits 0 99
  char '-'
  let m ← twoDigits 1 12
  char '-'
  let d ← twoDigits 1 (daysIn (Text.numeral 10 (a ++ b)) (Text.numeral 10 m))
  pure (a ++ b ++ '-' :: m ++ '-' :: d)

/-- The digits of a fraction of a second: nine at most, and no zeros at the end. -/
def trimFraction (ds : List Char) : List Char :=
  ((ds.take 9).reverse.dropWhile (· = '0')).reverse

def time : Scan (List Char) := do
  let h ← twoDigits 0 23
  char ':'
  let m ← twoDigits 0 59
  char ':'
  let s ← twoDigits 0 60
  let frac : Scan (List Char) := do
    char '.'
    let ds ← takeWhile Text.isDigit
    if ds.isEmpty then fail else pure (trimFraction ds)
  let f := match ← maybe frac with
    | some [] | none => []
    | some ds => '.' :: ds
  pure (h ++ ':' :: m ++ ':' :: s ++ f)

/-- An offset of no minutes is positive. -/
def offset : Scan (List Char) := do
  match ← any with
  | 'Z' | 'z' => pure ['Z']
  | c =>
    if c = '+' ∨ c = '-' then
      let h ← twoDigits 0 23
      char ':'
      let m ← twoDigits 0 59
      let mark := if (h ++ m).all (· = '0') then '+' else c
      pure (mark :: h ++ ':' :: m)
    else fail

/-- The key under which a date or time stands in a free-form value. -/
def momentKey : String := "$__toml_private_datetime"

/-- A date, a time, or both, with an offset at most after both. -/
def moment : Scan Json := do
  let full : Scan (List Char) := do
    let d ← date
    let later : Scan (List Char) := do
      let c ← any
      if c = 'T' ∨ c = 't' ∨ c = ' ' then
        let t ← time
        let o ← maybe offset
        pure ('T' :: t ++ o.getD [])
      else fail
    return d ++ (← maybe later).getD []
  let text ← orElse full time
  pure (.obj [(momentKey, .str (String.ofList text))])

end LanguageHost.Toml
