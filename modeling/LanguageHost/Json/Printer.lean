import LanguageHost.Json.Basic

/-!
Writing JSON text, on one line or indented by two spaces a level. Text outside ASCII stays as it is.
-/
namespace LanguageHost.Json

def hexDigit (n : Nat) : Char := if n < 10 then Char.ofNat (48 + n) else Char.ofNat (87 + n)

def quoteChar (c : Char) : List Char :=
  if c = '"' then ['\\', '"']
  else if c = '\\' then ['\\', '\\']
  else if c = '\x08' then ['\\', 'b']
  else if c = '\x0c' then ['\\', 'f']
  else if c = '\n' then ['\\', 'n']
  else if c = '\r' then ['\\', 'r']
  else if c = '\t' then ['\\', 't']
  else if c < ' ' then ['\\', 'u', '0', '0', hexDigit (c.toNat / 16), hexDigit (c.toNat % 16)]
  else [c]

def quote (s : String) : String := String.ofList ('"' :: s.toList.flatMap quoteChar ++ ['"'])

def ofFloat (x : Binary64) : String := if x.isFinite then x.toText else "null"

mutual

def compact : Json → String
  | .null => "null"
  | .bool b => if b then "true" else "false"
  | .int n => toString n
  | .float x => ofFloat x
  | .str s => quote s
  | .arr items => "[" ++ compactItems items ++ "]"
  | .obj members => "\x7b" ++ compactMembers members ++ "\x7d"

def compactItems : List Json → String
  | [] => ""
  | [j] => compact j
  | j :: js => compact j ++ "," ++ compactItems js

def compactMembers : List (String × Json) → String
  | [] => ""
  | [(k, j)] => quote k ++ ":" ++ compact j
  | (k, j) :: rest => quote k ++ ":" ++ compact j ++ "," ++ compactMembers rest

end

def indent (depth : Nat) : String := String.ofList (List.replicate (2 * depth) ' ')

mutual

def pretty (depth : Nat) : Json → String
  | .arr [] => "[]"
  | .arr items => "[\n" ++ prettyItems (depth + 1) items ++ "\n" ++ indent depth ++ "]"
  | .obj [] => "\x7b\x7d"
  | .obj members => "\x7b\n" ++ prettyMembers (depth + 1) members ++ "\n" ++ indent depth ++ "\x7d"
  | .null => "null"
  | .bool b => if b then "true" else "false"
  | .int n => toString n
  | .float x => ofFloat x
  | .str s => quote s

def prettyItems (depth : Nat) : List Json → String
  | [] => ""
  | [j] => indent depth ++ pretty depth j
  | j :: js => indent depth ++ pretty depth j ++ ",\n" ++ prettyItems depth js

def prettyMembers (depth : Nat) : List (String × Json) → String
  | [] => ""
  | [(k, j)] => indent depth ++ quote k ++ ": " ++ pretty depth j
  | (k, j) :: rest =>
    indent depth ++ quote k ++ ": " ++ pretty depth j ++ ",\n" ++ prettyMembers depth rest

end

end LanguageHost.Json
