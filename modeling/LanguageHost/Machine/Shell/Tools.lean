import LanguageHost.Machine.Host
import LanguageHost.Machine.Shell.Expansion

/-!
The tools that a script can use. Each is a function on the state of the shell: what it prints goes where
the wiring says, and its status stays.
-/
namespace LanguageHost.Shell

/-! Formats. -/

/-- The octet or characters that an escape in a format stands for; `cs` follows the backslash. -/
def escaped (cs : List Char) : Octets × List Char :=
  let digits := (cs.take 3).takeWhile fun c => '0' ≤ c ∧ c ≤ '7'
  match cs with
  | 'n' :: rest => ([10], rest)
  | 't' :: rest => ([9], rest)
  | 'r' :: rest => ([13], rest)
  | 'a' :: rest => ([7], rest)
  | 'b' :: rest => ([8], rest)
  | 'f' :: rest => ([12], rest)
  | 'v' :: rest => ([11], rest)
  | '\\' :: rest => ([92], rest)
  | c :: rest =>
    if digits.isEmpty then (Utf8.encode ['\\', c], rest)
    else ([UInt8.ofNat (Text.numeral 8 digits)], cs.drop digits.length)
  | [] => ([92], [])

/-- Text with its escapes replaced. -/
def unescape (fuel : Nat) (cs : List Char) : Octets :=
  match fuel, cs with
  | 0, _ | _, [] => []
  | fuel + 1, '\\' :: rest =>
    let (bs, rest) := escaped rest
    bs ++ unescape fuel rest
  | fuel + 1, c :: rest => Utf8.encode [c] ++ unescape fuel rest

def unescaped (s : String) : Octets := unescape (s.length + 1) s.toList

/-- How an argument is printed: at which side of how many places, how much of it, and as what. -/
structure Conversion where
  left : Bool
  zeros : Bool
  width : Nat
  precision : Option Nat
  kind : Char

namespace Conversion

/-- The conversion after a percent sign. -/
def ofChars (cs : List Char) : Conversion × List Char :=
  let isFlag (c : Char) : Bool := c == '-' || c == '0' || c == '+' || c == ' ' || c == '#'
  let flags := cs.takeWhile isFlag
  let cs := cs.dropWhile isFlag
  let width := cs.takeWhile Text.isDigit
  let cs := cs.dropWhile Text.isDigit
  let (precision, cs) := match cs with
    | '.' :: rest => (some (Text.numeral 10 (rest.takeWhile Text.isDigit)), rest.dropWhile Text.isDigit)
    | cs => (none, cs)
  (⟨flags.contains '-', flags.contains '0', Text.numeral 10 width, precision, cs.headD 's'⟩, cs.drop 1)

def isNumeric (c : Conversion) : Bool := "diuoxX".toList.contains c.kind

/-- The text of an argument before it is padded. -/
def body (c : Conversion) (arg : String) : Octets :=
  let n := (integer? arg.toList).getD 0
  match c.kind with
  | 'd' | 'i' | 'u' => Utf8.ofString (toString n)
  | 'o' => Utf8.encode (Nat.toDigits 8 n.toNat)
  | 'x' => Utf8.encode (Nat.toDigits 16 n.toNat)
  | 'X' => Utf8.encode ((Nat.toDigits 16 n.toNat).map Char.toUpper)
  | 'c' => Utf8.encode (arg.toList.take 1)
  | kind =>
    let bs := if kind = 'b' then unescaped arg else Utf8.ofString arg
    match c.precision with
    | some n => bs.take n
    | none => bs

/-- Zeros stand behind the sign of a number. -/
def print (c : Conversion) (arg : String) : Octets :=
  let bs := c.body arg
  let missing := c.width - bs.length
  if c.left then bs ++ List.replicate missing 32
  else if c.zeros ∧ c.isNumeric then
    let sign := bs.takeWhile (· = 45)
    sign ++ List.replicate missing 48 ++ bs.drop sign.length
  else List.replicate missing 32 ++ bs

end Conversion

/-- One pass over a format: what it prints, and the arguments that are left. -/
def formatOnce (fuel : Nat) (cs : List Char) (args : List String) : Octets × List String :=
  match fuel, cs with
  | 0, _ | _, [] => ([], args)
  | fuel + 1, '%' :: '%' :: rest =>
    let (bs, args) := formatOnce fuel rest args
    (37 :: bs, args)
  | fuel + 1, '%' :: rest =>
    let (c, rest) := Conversion.ofChars rest
    let (bs, left) := formatOnce fuel rest (args.drop 1)
    (c.print (args.headD "") ++ bs, left)
  | fuel + 1, '\\' :: rest =>
    let (text, rest) := escaped rest
    let (bs, args) := formatOnce fuel rest args
    (text ++ bs, args)
  | fuel + 1, c :: rest =>
    let (bs, args) := formatOnce fuel rest args
    (Utf8.encode [c] ++ bs, args)

/-- A format goes over its arguments again and again as long as it takes any. -/
def format (fuel : Nat) (cs : List Char) (args : List String) : Octets :=
  match fuel with
  | 0 => []
  | fuel + 1 =>
    let (bs, rest) := formatOnce (cs.length + 1) cs args
    if rest.isEmpty ∨ rest.length = args.length then bs else bs ++ format fuel cs rest

/-! Conditions and signals. -/

def number (s : String) : Int := (integer? s.toList).getD 0

def holds (s : State) : List String → Bool
  | [] => false
  | "!" :: a :: rest => !holds s (a :: rest)
  | ["-z", a] => a = ""
  | ["-n", a] => a ≠ ""
  | ["-e", p] => s.files.exists? (s.cwd / p)
  | ["-f", p] => s.files.exists? (s.cwd / p) && !s.files.isDirectoryAt (s.cwd / p)
  | ["-d", p] => s.files.isDirectoryAt (s.cwd / p)
  | ["-x", p] => s.files.isProgram (s.cwd / p)
  | [a] => a ≠ ""
  | [a, "=", b] => a = b
  | [a, "!=", b] => a ≠ b
  | [a, "-eq", b] => number a = number b
  | [a, "-ne", b] => number a ≠ number b
  | [a, "-lt", b] => number a < number b
  | [a, "-le", b] => number a ≤ number b
  | [a, "-gt", b] => number b < number a
  | [a, "-ge", b] => number b ≤ number a
  | _ => false

def signalNumber? (name : String) : Option Nat :=
  match integer? name.toList with
  | some n => some n.toNat
  | none =>
    let full := if Text.startsWith "SIG" name then name else "SIG" ++ name
    (List.range 32).find? fun n => signalName n = full

/-- Whether a process that says nothing else takes no notice of a signal. -/
def isHarmless (signal : Nat) : Bool := [0, 17, 18, 23, 28].contains signal

/-- Sends a signal to the shell itself; nobody else can be reached. -/
def kill (s : State) (w : Wiring) (signal : String) (target : String) : State :=
  match signalNumber? signal with
  | none => (s.say w.err ("sh: 1: kill: Illegal option -" ++ signal ++ "\n")).finish 2
  | some n =>
    if target ≠ processNumber then
      (s.say w.err "sh: 1: kill: No such process\n\n").finish 1
    else if isHarmless n ∨ (s.ignored.contains n ∧ n ≠ 9) then s.finish 0
    else { s with ended := some (.signal n) }

/-! Filters. -/

/-- The lines of a text, each with the newline that ends it. -/
def octetLines : Octets → List Octets
  | [] => []
  | b :: bs =>
    if b = 10 then [10] :: octetLines bs
    else match octetLines bs with
      | [] => [[b]]
      | l :: ls => (b :: l) :: ls

/-- What a tool reads: files one after the other, or without names its input. -/
def gather (s : State) (w : Wiring) (tool : String) : List String → State × Octets
  | [] => ({ s with input := [] }.finish 0, s.input)
  | names => names.foldl (fun (s, bs) name =>
    if name = "-" then ({ s with input := [] }, bs ++ s.input)
    else if name = "/dev/null" then (s, bs)
    else match s.files.read (s.cwd / name) with
      | .ok content => (s, bs ++ content)
      | .error .isDirectory => ((s.say w.err (tool ++ ": " ++ name ++ ": Is a directory\n")).finish 1, bs)
      | .error _ => ((s.say w.err (tool ++ ": " ++ name ++ ": No such file or directory\n")).finish 1, bs))
    (s.finish 0, [])

/-- How much of a text is meant, in lines or in octets, and the names that follow. -/
def amount (args : List String) : Bool × Nat × List String :=
  match args with
  | "-n" :: n :: names => (false, (number n).toNat, names)
  | "-c" :: n :: names => (true, (number n).toNat, names)
  | a :: names =>
    match a.toList with
    | '-' :: 'n' :: n => (false, Text.numeral 10 n, names)
    | '-' :: 'c' :: n => (true, Text.numeral 10 n, names)
    | '-' :: c :: n => (false, Text.numeral 10 (c :: n), names)
    | _ => (false, 10, args)
  | [] => (false, 10, [])

/-- The front of what is read. There is one file that never ends, and holds zeros. -/
def head (s : State) (w : Wiring) (args : List String) : State :=
  match amount args with
  | (true, n, ["/dev/zero"]) => (s.emit w.out (List.replicate n 0)).finish 0
  | (octets, n, names) =>
    let (s, bs) := gather s w "head" names
    s.emit w.out (if octets then bs.take n else ((octetLines bs).take n).flatten)

def tail (s : State) (w : Wiring) (args : List String) : State :=
  let (octets, n, names) := amount args
  let (s, bs) := gather s w "tail" names
  let ls := octetLines bs
  s.emit w.out (if octets then bs.drop (bs.length - n) else (ls.drop (ls.length - n)).flatten)

/-- How many lines, octets or words there are. -/
def count (s : State) (w : Wiring) (what : String) (names : List String) : State :=
  let (s, bs) := gather s w "wc" names
  let n := match what with
    | "-l" => bs.count 10
    | "-w" => (Text.words (Utf8.lossy bs)).length
    | _ => bs.length
  s.say w.out (String.intercalate " " (toString n :: names) ++ "\n")

/-- The octets of a set in which a hyphen joins the ends of a range. -/
def octetSet : Octets → Octets
  | a :: 45 :: b :: rest =>
    (List.range (b.toNat + 1 - a.toNat)).map (fun n => UInt8.ofNat (a.toNat + n)) ++ octetSet rest
  | a :: rest => a :: octetSet rest
  | [] => []

/-- Octets of one set become those of another; the last of these stands for all that are missing. -/
def exchange (source target : Octets) (b : UInt8) : UInt8 :=
  match source.idxOf? b with
  | some i => (target[i]?.or target.getLast?).getD b
  | none => b

def exchangeAll (s : State) (w : Wiring) (args : List String) : State :=
  let (s, bs) := gather s w "tr" []
  let set (t : String) : Octets := octetSet (unescaped t)
  match args with
  | ["-d", t] => s.emit w.out (bs.filter fun b => !(set t).contains b)
  | [t, u] =>
    let source := set t
    let target := set u
    s.emit w.out (bs.map (exchange source target))
  | _ => s.finish 1

/-- The lines in order, each with a newline. -/
def sort (s : State) (w : Wiring) (backwards : Bool) (names : List String) : State :=
  let (s, bs) := gather s w "sort" names
  let ls := sortStrings (Text.lines (Utf8.lossy bs))
  s.say w.out (String.join ((if backwards then ls.reverse else ls).map (· ++ "\n")))

/-- The whole numbers from one to another, a line each. -/
def sequence (low high : Int) : String :=
  String.join ((List.range (high - low + 1).toNat).map fun (i : Nat) => toString (low + i) ++ "\n")

/-- How often a word is repeated to a reader that may end early; to any other it is repeated forever. -/
def repeats : Nat := 20000

def repeatedly (s : State) (w : Wiring) (word : String) : State :=
  let line := Utf8.ofString (word ++ "\n")
  let s := (List.range repeats).foldl (fun s _ => s.emit w.out line) s
  match w.out with
  | .pipe => s.finish 0
  | _ => { s with ended := some .hang }

/-! Files. -/

def makeDirs (s : State) (p : Path) : State :=
  match s.files.makeDirs p with
  | .ok files => { s with files := files, acts := .makeDirs p :: s.acts }
  | .error _ => s.finish 1

def remove (s : State) (p : Path) : State :=
  { s with files := Host.removeAny s.files p, acts := .remove p :: s.acts }

/-- The names in a directory, a line each. -/
def listNames (s : State) (w : Wiring) (dir : String) : State :=
  match s.files.list (s.cwd / dir) with
  | .ok names => s.say w.out (String.join ((names.filter fun n => !Text.startsWith "." n).map (· ++ "\n")))
  | .error _ =>
    (s.say w.err ("ls: cannot access '" ++ dir ++ "': No such file or directory\n")).finish 2

/-- A tool of the given name; none if there is no such tool. -/
def tool? (s : State) (w : Wiring) (name : String) (args : List String) : Option State :=
  let ok := s.finish 0
  let options := args.takeWhile (Text.startsWith "-")
  let names := args.dropWhile (Text.startsWith "-")
  match name, args with
  | "echo", "-n" :: args => some (ok.emit w.out (unescaped (String.intercalate " " args)))
  | "echo", args => some (ok.emit w.out (unescaped (String.intercalate " " args) ++ [10]))
  | "printf", f :: args => some (ok.emit w.out (format (args.length + 1) f.toList args))
  | "true", _ | ":", _ | "sleep", _ | "wait", _ => some ok
  | "false", _ => some (s.finish 1)
  | "cat", names =>
    let (s, bs) := gather s w "cat" names
    some (s.emit w.out bs)
  | "head", args => some (head s w args)
  | "tail", args => some (tail s w args)
  | "wc", what :: names => some (count s w what names)
  | "tr", args => some (exchangeAll s w args)
  | "sort", "-r" :: names => some (sort s w true names)
  | "sort", names => some (sort s w false names)
  | "yes", args => some (repeatedly s w (if args.isEmpty then "y" else String.intercalate " " args))
  | "seq", [high] => some (ok.say w.out (sequence 1 (number high)))
  | "seq", [low, high] => some (ok.say w.out (sequence (number low) (number high)))
  | "pwd", _ => some (ok.say w.out (s.cwd.text ++ "\n"))
  | "ls", _ => some (names.foldl (fun s dir => listNames s w dir) (if names.isEmpty then listNames ok w "." else ok))
  | "mkdir", _ => some (names.foldl (fun s p => makeDirs s (s.cwd / p)) ok)
  | "touch", _ => some (names.foldl (fun s p =>
      if s.files.exists? (s.cwd / p) then s else s.write (s.cwd / p) []) ok)
  | "rm", _ => some (names.foldl (fun s p =>
      if s.files.exists? (s.cwd / p) || !options.isEmpty then remove s (s.cwd / p)
      else (s.say w.err ("rm: cannot remove '" ++ p ++ "': No such file or directory\n")).finish 1) ok)
  | "test", args => some (s.finish (if holds s args then 0 else 1))
  | "[", args => some (s.finish (if holds s args.dropLast then 0 else 1))
  | "kill", ["-s", signal, target] => some (kill s w signal target)
  | "kill", [target] => some (kill s w "TERM" target)
  | "kill", [signal, target] => some (kill s w (String.ofList (signal.toList.drop 1)) target)
  | _, _ => none

def toolNames : List String := ["[", "cat", "echo", "false", "head", "kill", "ls", "mkdir", "printf", "pwd",
  "rm", "seq", "sh", "sleep", "sort", "tail", "test", "touch", "tr", "true", "wc", "yes"]

end LanguageHost.Shell
