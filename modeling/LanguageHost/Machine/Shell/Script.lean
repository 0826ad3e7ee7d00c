import LanguageHost.Text.Blank

/-!
Shell scripts: words made of quoted and unquoted parts, and the commands built from them. A script is
read in two steps, to tokens and then to a command.
-/
namespace LanguageHost.Shell

/-- A piece of a word. Quoted pieces are never split into fields. -/
inductive Part where
  | text (s : List Char) (quoted : Bool)
  | parameter (name : String) (quoted : Bool)
  | sum (expression : List Char) (quoted : Bool)
  /-- a script whose output stands in its place -/
  | command (script : List Char) (quoted : Bool)
  /-- what such a script has printed -/
  | output (s : List Char) (quoted : Bool)
deriving Repr

def Part.plain? : Part → Option (List Char)
  | .text s false => some s
  | _ => none

def Part.isCommand : Part → Bool
  | .command _ _ => true
  | _ => false

abbrev Word := List Part

/-- The text of a word without quotes and parameters. -/
def Word.plain? (w : Word) : Option String :=
  (w.mapM Part.plain?).map fun ss => String.ofList ss.flatten

inductive Token where
  | word (w : Word)
  /-- an operator, or the end of a line -/
  | mark (s : String)
  /-- where a stream of the command goes; the word after it says more -/
  | redirect (stream : Nat) (kind : String)
deriving Repr

def isNameStart (c : Char) : Bool := c.isAlpha || c == '_'

def isNameChar (c : Char) : Bool := isNameStart c || Text.isDigit c

/-- The text up to the bracket that closes an open one, and what follows it. Brackets between quotes do
not count. -/
def enclosed (fuel depth : Nat) (done : List Char) (cs : List Char) : List Char × List Char :=
  match fuel, cs with
  | 0, _ | _, [] => (done.reverse, cs)
  | fuel + 1, '\\' :: c :: rest => enclosed fuel depth (c :: '\\' :: done) rest
  | fuel + 1, c :: rest =>
    if c = '\'' ∨ c = '"' then
      let inside := rest.takeWhile (· != c)
      enclosed fuel depth ((c :: inside ++ [c]).reverse ++ done) (rest.drop (inside.length + 1))
    else if c = '(' then enclosed fuel (depth + 1) (c :: done) rest
    else if c = ')' then
      if depth = 0 then (done.reverse, rest) else enclosed fuel (depth - 1) (c :: done) rest
    else enclosed fuel depth (c :: done) rest

/-- What a dollar sign starts; `cs` follows the sign. -/
def dollar (quoted : Bool) (cs : List Char) : Part × List Char :=
  match cs with
  | '(' :: '(' :: rest =>
    let (expression, rest) := enclosed (rest.length + 1) 0 [] rest
    (.sum expression quoted, rest.drop 1)
  | '(' :: rest =>
    let (script, rest) := enclosed (rest.length + 1) 0 [] rest
    (.command script quoted, rest)
  | '\x7b' :: rest =>
    (.parameter (String.ofList (rest.takeWhile (· != '\x7d'))) quoted,
      (rest.dropWhile (· != '\x7d')).drop 1)
  | c :: rest =>
    if isNameStart c then
      (.parameter (String.ofList (cs.takeWhile isNameChar)) quoted, cs.dropWhile isNameChar)
    else if c = '$' ∨ c = '?' ∨ c = '#' ∨ c = '!' ∨ Text.isDigit c then
      (.parameter (String.ofList [c]) quoted, rest)
    else (.text ['$'] quoted, cs)
  | [] => (.text ['$'] quoted, [])

/-- The script between backquotes; the first of them is already taken. -/
def backquoted (quoted : Bool) (cs : List Char) : Part × List Char :=
  (.command (cs.takeWhile (· != '\x60')) quoted, (cs.dropWhile (· != '\x60')).drop 1)

/-- The text between double quotes, and what follows them. -/
def doubleQuoted (fuel : Nat) (done : Word) (cs : List Char) : Option (Word × List Char) :=
  match fuel, cs with
  | 0, _ => none
  | _, [] => none
  | _ + 1, '"' :: rest => some (done, rest)
  | fuel + 1, '\\' :: c :: rest =>
    if c = '"' ∨ c = '\\' ∨ c = '$' ∨ c = '\x60' then doubleQuoted fuel (done ++ [.text [c] true]) rest
    else doubleQuoted fuel (done ++ [.text ['\\', c] true]) rest
  | fuel + 1, '$' :: rest =>
    let (part, rest) := dollar true rest
    doubleQuoted fuel (done ++ [part]) rest
  | fuel + 1, '\x60' :: rest =>
    let (part, rest) := backquoted true rest
    doubleQuoted fuel (done ++ [part]) rest
  | fuel + 1, c :: rest => doubleQuoted fuel (done ++ [.text [c] true]) rest

/-- Ends the word under way. -/
def flush (word : Option Word) : List Token := (word.map Token.word).toList

/-- The stream that a redirection is for: a digit in front of it, or the usual one. -/
def streamOf (word : Option Word) (usual : Nat) : List Token × Nat :=
  match word with
  | some [.text [d] false] => if Text.isDigit d then ([], Text.digitValue d) else (flush word, usual)
  | _ => (flush word, usual)

/-- The tokens of a script; `word` is the word under way. -/
def tokens? (fuel : Nat) (word : Option Word) (cs : List Char) : Option (List Token) :=
  let add (p : Part) : Option Word := some (word.getD [] ++ [p])
  let mark (s : String) (ts : Option (List Token)) : Option (List Token) :=
    ts.map fun ts => flush word ++ .mark s :: ts
  let redirect (usual : Nat) (kind : String) (ts : Option (List Token)) : Option (List Token) :=
    let (before, stream) := streamOf word usual
    ts.map fun ts => before ++ .redirect stream kind :: ts
  match fuel, cs with
  | _, [] => some (flush word)
  | 0, _ => none
  | fuel + 1, '\\' :: '\n' :: rest => tokens? fuel word rest
  | fuel + 1, '\\' :: c :: rest => tokens? fuel (add (.text [c] true)) rest
  | fuel + 1, '\'' :: rest =>
    if rest.contains '\'' then
      tokens? fuel (add (.text (rest.takeWhile (· != '\'')) true))
        ((rest.dropWhile (· != '\'')).drop 1)
    else none
  | fuel + 1, '"' :: rest =>
    match doubleQuoted (rest.length + 1) [.text [] true] rest with
    | none => none
    | some (parts, rest) => tokens? fuel (some (word.getD [] ++ parts)) rest
  | fuel + 1, '$' :: rest =>
    let (part, rest) := dollar false rest
    tokens? fuel (add part) rest
  | fuel + 1, '\x60' :: rest =>
    let (part, rest) := backquoted false rest
    tokens? fuel (add part) rest
  | fuel + 1, '&' :: '&' :: rest => mark "&&" (tokens? fuel none rest)
  | fuel + 1, '|' :: '|' :: rest => mark "||" (tokens? fuel none rest)
  | fuel + 1, '>' :: '>' :: rest => redirect 1 ">>" (tokens? fuel none rest)
  | fuel + 1, '>' :: '&' :: rest => redirect 1 ">&" (tokens? fuel none rest)
  | fuel + 1, '>' :: rest => redirect 1 ">" (tokens? fuel none rest)
  | fuel + 1, '<' :: rest => redirect 0 "<" (tokens? fuel none rest)
  | fuel + 1, c :: rest =>
    if c = ';' ∨ c = '&' ∨ c = '|' ∨ c = '(' ∨ c = ')' ∨ c = '\n' then
      mark (String.ofList [c]) (tokens? fuel none rest)
    else if c = ' ' ∨ c = '\t' then (tokens? fuel none rest).map fun ts => flush word ++ ts
    else if c = '#' ∧ word.isNone then tokens? fuel none (rest.dropWhile (· != '\n'))
    else tokens? fuel (add (.text [c] false)) rest

structure Redirect where
  stream : Nat
  kind : String
  target : Word
deriving Repr

inductive Script where
  | nothing
  | simple (words : List Word) (redirects : List Redirect)
  | seq (first next : Script)
  /-- the second only if the first succeeds, or only if it fails -/
  | also (success : Bool) (first next : Script)
  /-- what the first prints is the input of the second -/
  | pipe (first next : Script)
  | redirected (s : Script) (redirects : List Redirect)
  /-- commands taken for one -/
  | group (s : Script)
  /-- in the background -/
  | behind (s : Script)
  | sub (s : Script)
  | loop (condition body : Script)
  | branch (condition yes no : Script)
  | each (name : String) (words : List Word) (body : Script)

/-- A pipe to a command, from the last part of what stands before it. -/
def Script.pipeTo : Script → Script → Script
  | .also success a b, next => .also success a (b.pipeTo next)
  | s, next => .pipe s next

/-- The words that end the body of a compound command. -/
def closers : List String := ["do", "done", "then", "else", "elif", "fi", "\x7d"]

def reserved? : List Token → Option (String × List Token)
  | .word w :: rest => (Word.plain? w).map fun s => (s, rest)
  | _ => none

/-- Takes a reserved word off the front. -/
def expect? (word : String) (ts : List Token) : Option (List Token) :=
  match reserved? ts with
  | some (w, rest) => if w = word then some rest else none
  | none => none

/-- The words and redirections of a simple command. -/
def simple? : List Token → List Word → List Redirect → Option (Script × List Token)
  | .word w :: rest, ws, rs => simple? rest (ws ++ [w]) rs
  | .redirect stream kind :: .word w :: rest, ws, rs => simple? rest ws (rs ++ [⟨stream, kind, w⟩])
  | .redirect _ _ :: _, _, _ => none
  | ts, ws, rs => if ws.isEmpty ∧ rs.isEmpty then none else some (.simple ws rs, ts)

/-- A compound command with the redirections that follow it. -/
def withRedirects (s : Script) : List Token → List Redirect → Script × List Token
  | .redirect stream kind :: .word w :: rest, rs => withRedirects s rest (rs ++ [⟨stream, kind, w⟩])
  | ts, rs => (if rs.isEmpty then s else .redirected s rs, ts)

def skipLines (ts : List Token) : List Token :=
  match ts with
  | .mark "\n" :: rest => skipLines rest
  | ts => ts

/-- The words up to the end of a line or a semicolon. -/
def wordsUpTo : List Token → List Word × List Token
  | .word w :: rest =>
    let (ws, rest) := wordsUpTo rest
    (w :: ws, rest)
  | .mark _ :: rest => ([], rest)
  | ts => ([], ts)

mutual

/-- Commands up to a closing word or mark. -/
def list? (fuel : Nat) (ts : List Token) : Option (Script × List Token) :=
  match fuel with
  | 0 => none
  | fuel + 1 =>
    match skipLines ts with
    | [] => some (.nothing, [])
    | .mark ")" :: rest => some (.nothing, .mark ")" :: rest)
    | ts =>
      if closers.contains ((reserved? ts).elim "" Prod.fst) then some (.nothing, ts)
      else do
        let (first, ts) ← chain? fuel ts
        match ts with
        | .mark ";" :: rest | .mark "\n" :: rest =>
          let (next, ts) ← list? fuel rest
          some (.seq first next, ts)
        | .mark "&" :: rest =>
          let (next, ts) ← list? fuel rest
          some (.seq (.behind first) next, ts)
        | ts => some (first, ts)

/-- Commands joined by what they depend on. -/
def chain? (fuel : Nat) (ts : List Token) : Option (Script × List Token) :=
  match fuel with
  | 0 => none
  | fuel + 1 => do
    let (first, ts) ← command? fuel ts
    joined? fuel first ts

/-- What follows a command. A pipe binds more closely than a dependence. -/
def joined? (fuel : Nat) (first : Script) (ts : List Token) : Option (Script × List Token) :=
  match fuel with
  | 0 => none
  | fuel + 1 =>
    match ts with
    | .mark "|" :: rest => do
      let (next, ts) ← command? fuel (skipLines rest)
      joined? fuel (first.pipeTo next) ts
    | .mark "&&" :: rest => do
      let (next, ts) ← command? fuel (skipLines rest)
      joined? fuel (.also true first next) ts
    | .mark "||" :: rest => do
      let (next, ts) ← command? fuel (skipLines rest)
      joined? fuel (.also false first next) ts
    | ts => some (first, ts)

def command? (fuel : Nat) (ts : List Token) : Option (Script × List Token) :=
  match fuel with
  | 0 => none
  | fuel + 1 =>
    match ts with
    | .mark "(" :: rest => do
      match ← list? fuel rest with
      | (s, .mark ")" :: rest) => some (withRedirects (.sub s) rest [])
      | _ => none
    | ts =>
      match reserved? ts with
      | some ("while", rest) => do
        let (condition, ts) ← list? fuel rest
        let (body, ts) ← list? fuel (← expect? "do" ts)
        some (withRedirects (.loop condition body) (← expect? "done" ts) [])
      | some ("if", rest) => do
        let (s, ts) ← branch? fuel rest
        some (withRedirects s ts [])
      | some ("for", rest) => do
        let (name, ts) ← reserved? rest
        let (words, ts) := wordsUpTo (← expect? "in" ts)
        let (body, ts) ← list? fuel (← expect? "do" ts)
        some (withRedirects (.each name words body) (← expect? "done" ts) [])
      | some ("\x7b", rest) => do
        let (s, ts) ← list? fuel rest
        let (s, ts) := withRedirects s (← expect? "\x7d" ts) []
        some (.group s, ts)
      | _ => simple? ts [] []

/-- What follows `if` or `elif`. -/
def branch? (fuel : Nat) (ts : List Token) : Option (Script × List Token) :=
  match fuel with
  | 0 => none
  | fuel + 1 => do
    let (condition, ts) ← list? fuel ts
    let (yes, ts) ← list? fuel (← expect? "then" ts)
    match reserved? ts with
    | some ("else", rest) =>
      let (no, ts) ← list? fuel rest
      some (.branch condition yes no, ← expect? "fi" ts)
    | some ("elif", rest) =>
      let (no, ts) ← branch? fuel rest
      some (.branch condition yes no, ts)
    | some ("fi", rest) => some (.branch condition yes .nothing, rest)
    | _ => none

end

/-- The command that a script writes. -/
def Script.ofText? (s : String) : Option Script := do
  let ts ← tokens? (s.length + 1) none s.toList
  match ← list? (4 * ts.length + 4) ts with
  | (script, []) => some script
  | _ => none

end LanguageHost.Shell
