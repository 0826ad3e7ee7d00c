import LanguageHost.Machine.Host
import LanguageHost.Machine.Shell.Tools

/-!
What a script does: its output and changes to files as acts, and how it ends. Scripts run with a bound
on their steps; one that does not end within it counts as hanging.
-/
namespace LanguageHost.Shell

/-- Opens what redirections name; none when one cannot be opened. -/
def rewire (s : State) (w : Wiring) : List Redirect → State × Option Wiring
  | [] => (s, some w)
  | r :: rest =>
    let target := expandWhole s r.target
    let path := s.cwd / target
    let onto (w : Wiring) (sink : Sink) : Wiring :=
      if r.stream = 2 then { w with err := sink } else { w with out := sink }
    match r.kind with
    | "<" =>
      if target = "/dev/null" then rewire { s with input := [] } w rest
      else match s.files.read path with
        | .ok bs => rewire { s with input := bs } w rest
        | .error _ =>
          ((s.say w.err ("sh: 1: cannot open " ++ target ++ ": No such file\n")).finish 2, none)
    | ">&" => rewire s (onto w (if target = "2" then w.err else w.out)) rest
    | kind =>
      if target = "/dev/null" then rewire s (onto w .nowhere) rest
      else match s.files.write path [] with
        | .ok _ =>
          let s := if kind = ">" ∨ !s.files.exists? path then s.write path [] else s
          rewire s (onto w (.file path)) rest
        | .error _ =>
          ((s.say w.err ("sh: 1: cannot create " ++ target ++ ": Directory nonexistent\n")).finish 2,
            none)

def assign (s : State) (name value : String) : State := { s with vars := s.vars.insert name value }

/-- The first line of the input, and what is left of it. -/
def readLine (s : State) (name : String) : State :=
  match octetLines s.input with
  | [] => (assign s name "").finish 1
  | line :: rest =>
    let text := Text.trim (Utf8.lossy line)
    (assign { s with input := rest.flatten } name text).finish (if line.getLast? = some 10 then 0 else 1)

/-- The commands that change the shell itself; none if this is not one of them. -/
def special? (s : State) (name : String) (args : List String) : Option State :=
  match name, args with
  | "exit", [] => some { s with ended := some (.exit s.status) }
  | "exit", code :: _ => some { s with ended := some (.exit ((number code).emod 256).toNat) }
  | "cd", [dir] =>
    if s.files.isDirectoryAt (s.cwd / dir) then some ({ s with cwd := (s.cwd / dir).clean }.finish 0)
    else some (s.finish 2)
  | "trap", action :: names =>
    let signals := names.filterMap signalNumber?
    if action = "" then some ({ s with ignored := s.ignored ++ signals }.finish 0)
    else some ({ s with ignored := s.ignored.filter fun n => !signals.contains n }.finish 0)
  | "export", assignments =>
    some ((assignments.foldl (fun s a =>
      match Text.cut? '=' a.toList with
      | some (name, value) => assign s (String.ofList name) (String.ofList value)
      | none => s) s).finish 0)
  | "unset", names => some ({ s with vars := names.foldl (fun t n => t.erase n) s.vars }.finish 0)
  | "read", "-r" :: name :: _ | "read", name :: _ => some (readLine s name)
  | "set", "-e" :: _ => some ({ s with strict := true }.finish 0)
  | "set", "+e" :: _ => some ({ s with strict := false }.finish 0)
  | "set", _ => some (s.finish 0)
  | _, _ => none

/-- Text less the newlines at its end. -/
def dropNewlines (cs : List Char) : List Char := (cs.reverse.dropWhile (· = '\n')).reverse

def eval (fuel : Nat) (script : Script) (w : Wiring) (s : State) : State :=
  if s.ended.isSome then s
  else match fuel with
    | 0 => { s with ended := some .hang }
    | fuel + 1 =>
      -- What a script prints, and the shell after it.
      let printed (s : State) (text : List Char) : State × List Char :=
        match Script.ofText? (String.ofList text) with
        | some script =>
          let inner := eval fuel script { w with out := .pipe } { s with piped := [] }
          (s.leave inner, dropNewlines (Utf8.lossy inner.piped).toList)
        | none => ((s.say w.err "sh: 1: Syntax error\n").finish 2, [])
      match script with
      | .nothing => s
      | .seq a b => eval fuel b w (eval fuel a w s)
      | .also success a b =>
        let s := eval fuel a { w with asked := true } s
        if (s.status == 0) == success then eval fuel b w s else s
      | .behind a => (s.leave (eval fuel a w { s with input := [] })).finish 0
      | .sub a => (s.leave (eval fuel a w s)).heed w
      | .group a => eval fuel a w s
      | .pipe a b =>
        let inner := eval fuel a { w with out := .pipe, asked := true } { s with piped := [] }
        let s := s.leave inner
        (s.leave (eval fuel b w { s with input := inner.piped })).heed w
      | .redirected a redirects =>
        match rewire s w redirects with
        | (s, none) => s
        | (inner, some w) => { eval fuel a w inner with input := s.input }
      | .loop c body =>
        let s := eval fuel c { w with asked := true } s
        if s.status = 0 ∧ s.ended.isNone then eval fuel (.loop c body) w (eval fuel body w s)
        else s.finish 0
      | .branch c yes no =>
        let s := eval fuel c { w with asked := true } s
        if s.status = 0 then eval fuel yes w s else eval fuel no w (s.finish 0)
      | .each name words body =>
        let (s, words) := fillAll printed s words
        (words.flatMap (expand s)).foldl (fun s item =>
          if s.ended.isSome then s else eval fuel body w (assign s name item)) (s.finish 0)
      | .simple words redirects =>
        let hasCommand := words.any fun word => word.any Part.isCommand
        let (s, words) := fillAll printed s words
        let assignments := (words.map assignment?).takeWhile Option.isSome
        let fields := (words.drop assignments.length).flatMap (expand s)
        let place := s.input
        match rewire s w redirects, fields with
        | (s, none), _ => s.heed w
        | (s, some _), [] =>
          { (assignments.filterMap id).foldl (fun s (name, value) =>
            assign s name (expandWhole s value)) s with
              input := place, status := if hasCommand then s.status else 0 }
        | (s, some w), name :: args =>
          let s : State := match special? s name args, tool? s w name args, name, args with
            | some s, _, _, _ | none, some s, _, _ => s
            | none, none, "sh", "-c" :: line :: _ =>
              match Script.ofText? line with
              | some script => s.leave (eval fuel script w s)
              | none => (s.say w.err "sh: 1: Syntax error\n").finish 2
            | none, none, "exec", _ :: _ =>
              let s := eval fuel (.simple (args.map fun a => [.text a.toList true]) []) w s
              { s with ended := s.ended.or (some (.exit s.status)) }
            | none, none, _, _ =>
              (s.say w.err ("sh: 1: " ++ name ++ ": not found\n")).finish 127
          (if redirects.any (·.kind == "<") then { s with input := place } else s).heed w

/-- How many steps a script may take. -/
def stepLimit : Nat := 1000000

/-- The programs of a machine that has a shell and its tools, and nothing else. On its own `echo`
prints its arguments as they are. -/
def programs : Programs := fun inv files =>
  let s : State := ⟨inv.env, files, inv.cwd, [], [], [], 0, [], false, none⟩
  let args := inv.argv.drop 1
  match inv.file.fileName?.getD "" with
  | "echo" => (s.say .out (String.intercalate " " args ++ "\n")).performance
  | name =>
    (eval stepLimit (.simple ((name :: args).map fun a => [.text a.toList true]) []) ⟨.out, .err, false⟩
      s).performance

end LanguageHost.Shell
