import LanguageHost.Json.Numeral
import LanguageHost.Text.Utf8

/-!
Reading JSON text: first its tokens, then its value. The value is built by a machine that takes one
token at a time and keeps the containers it is inside of, at most `depthLimit - 1` of them. A reader may
want parts of a value only; the rest has to be well formed, and nothing else is asked of it.
-/
namespace LanguageHost.Json

/-- Text and numbers may be well formed without a value: half of a surrogate pair, or a number beyond all
floats. -/
inductive Token where
  | openArr | closeArr | openObj | closeObj | comma | colon
  | text (s : Option String)
  | value (j : Option Json)

/-- Four hexadecimal digits. -/
def hexUnit? : List Char → Option (Nat × List Char)
  | a :: b :: c :: d :: rest =>
    if [a, b, c, d].all Text.isHexDigit then some (Text.numeral 16 [a, b, c, d], rest) else none
  | _ => none

/-- The character that an escape stands for, if there is one; `cs` follows the backslash. -/
def escape? (cs : List Char) : Option (Option Char × List Char) :=
  match cs with
  | '"' :: r => some (some '"', r)
  | '\\' :: r => some (some '\\', r)
  | '/' :: r => some (some '/', r)
  | 'b' :: r => some (some '\x08', r)
  | 'f' :: r => some (some '\x0c', r)
  | 'n' :: r => some (some '\n', r)
  | 'r' :: r => some (some '\r', r)
  | 't' :: r => some (some '\t', r)
  | 'u' :: r => do
    let (hi, r) ← hexUnit? r
    if 0xDC00 ≤ hi ∧ hi < 0xE000 then pure (none, r)
    else if 0xD800 ≤ hi ∧ hi < 0xDC00 then
      match r with
      | '\\' :: 'u' :: r' =>
        let (lo, r') ← hexUnit? r'
        if 0xDC00 ≤ lo ∧ lo < 0xE000 then
          pure (some (Char.ofNat (0x10000 + (hi - 0xD800) * 0x400 + (lo - 0xDC00))), r')
        else pure (none, r)
      | _ => pure (none, r)
    else pure (some (Char.ofNat hi), r)
  | _ => none

/-- The rest of a string after its opening quote. Control characters are refused. `done` holds the
characters before it, the nearest first, as long as each has a value. -/
def string? (fuel : Nat) (done : Option (List Char)) (cs : List Char) :
    Option (Option String × List Char) :=
  match fuel, cs with
  | 0, _ => none
  | _, [] => none
  | _ + 1, '"' :: r => some (done.map fun cs => String.ofList cs.reverse, r)
  | fuel + 1, '\\' :: r =>
    match escape? r with
    | none => none
    | some (c, r) => string? fuel (c.bind fun c => done.map (c :: ·)) r
  | fuel + 1, c :: r => if c < ' ' then none else string? fuel (done.map (c :: ·)) r

def isSpace (c : Char) : Bool := c == ' ' || c == '\n' || c == '\t' || c == '\r'

/-- The tokens of a text. Each takes at least one character, so the length of the text is fuel enough. -/
def tokens? (fuel : Nat) (done : List Token) (cs : List Char) : Option (List Token) :=
  match fuel, cs with
  | _, [] => some done.reverse
  | 0, _ => none
  | fuel + 1, c :: r =>
    if isSpace c then tokens? fuel done r
    else match c with
      | '[' => tokens? fuel (.openArr :: done) r
      | ']' => tokens? fuel (.closeArr :: done) r
      | '{' => tokens? fuel (.openObj :: done) r
      | '}' => tokens? fuel (.closeObj :: done) r
      | ',' => tokens? fuel (.comma :: done) r
      | ':' => tokens? fuel (.colon :: done) r
      | '"' =>
        match string? (fuel + 1) (some []) r with
        | none => none
        | some (s, r) => tokens? fuel (.text s :: done) r
      | _ =>
        match Text.afterStart? "null".toList cs, Text.afterStart? "true".toList cs,
            Text.afterStart? "false".toList cs with
        | some r, _, _ => tokens? fuel (.value (some .null) :: done) r
        | _, some r, _ => tokens? fuel (.value (some (.bool true)) :: done) r
        | _, _, some r => tokens? fuel (.value (some (.bool false)) :: done) r
        | none, none, none =>
          match Numeral.next? cs with
          | none => none
          | some (n, r) => tokens? fuel (.value n.value? :: done) r

/-- What is wanted of a value. -/
inductive Wanted where
  | whole
  | nothing
  /-- the members with these keys, or the items in their order -/
  | fields (fields : List (String × Wanted))
  /-- this of each member -/
  | each (value : Wanted)

namespace Wanted

def member (key : String) : Wanted → Wanted
  | .whole => .whole
  | .nothing => .nothing
  | .fields fs => (fs.lookup key).getD .nothing
  | .each w => w

def item (place : Nat) : Wanted → Wanted
  | .whole | .each _ => .whole
  | .nothing => .nothing
  | .fields fs => ((fs[place]?).map Prod.snd).getD .nothing

/-- A value for what is wanted. Null stands for what is not. -/
def take? (read : Option Json) : Wanted → Option Json
  | .nothing => some .null
  | _ => read

def key? (read : Option String) : Wanted → Option String
  | .nothing => some ""
  | _ => read

def isNothing (w : Wanted) : Bool := w matches .nothing

end Wanted

/-- A container under construction, its content in reverse, and what is wanted of it. -/
inductive Frame where
  | arr (wanted : Wanted) (items : List Json)
  | obj (wanted : Wanted) (members : List (String × Json)) (key : String)

namespace Frame

def next : Frame → Wanted
  | .arr w items => w.item items.length
  | .obj w _ key => w.member key

def value : Frame → Json
  | .arr _ items => .arr items.reverse
  | .obj _ members _ => .obj members.reverse

end Frame

/-- What may come next. -/
inductive Expect where
  /-- a value -/
  | value
  /-- a value, or the end of an array that is still empty -/
  | firstItem
  /-- a key, or the end of an object that is still empty -/
  | firstKey
  /-- a key -/
  | key
  /-- the colon after a key -/
  | colon
  /-- a comma or the end of the container -/
  | more
  /-- nothing -/
  | done (j : Json)

structure State where
  /-- what is wanted of the whole text -/
  wanted : Wanted
  frames : List Frame
  expect : Expect

/-- Containers may be nested less deeply than this. -/
def depthLimit : Nat := 128

namespace State

def give (s : State) (frames : List Frame) (j : Json) : State :=
  match frames with
  | [] => { s with frames := [], expect := .done j }
  | .arr w items :: outer => { s with frames := .arr w (j :: items) :: outer, expect := .more }
  | .obj w members key :: outer =>
    { s with frames := .obj w ((key, j) :: members) key :: outer, expect := .more }

/-- Opens a container. How deep it stands matters only where something is wanted of it. -/
def enter (s : State) (frame : Wanted → Frame) (w : Wanted) (expect : Expect) : Option State :=
  if w.isNothing ∨ s.frames.length + 1 < depthLimit then
    some { s with frames := frame w :: s.frames, expect := expect }
  else none

def start (s : State) (t : Token) : Option State :=
  let w := (s.frames.head?.map Frame.next).getD s.wanted
  match t with
  | .value j => (w.take? j).map (s.give s.frames)
  | .text t => (w.take? (t.map .str)).map (s.give s.frames)
  | .openArr => s.enter (.arr · []) w .firstItem
  | .openObj => s.enter (.obj · [] "") w .firstKey
  | _ => none

/-- Closes the innermost container. -/
def close (s : State) : Option State :=
  match s.frames with
  | [] => none
  | f :: outer => some (s.give outer f.value)

def enterKey (s : State) (key : Option String) : Option State :=
  match s.frames with
  | .obj w members _ :: outer => (w.key? key).map fun key =>
    { s with frames := .obj w members key :: outer, expect := .colon }
  | _ => none

def step (s : State) (t : Token) : Option State :=
  match s.expect, t with
  | .firstItem, .closeArr => s.close
  | .value, t | .firstItem, t => s.start t
  | .firstKey, .closeObj => s.close
  | .firstKey, .text key | .key, .text key => s.enterKey key
  | .colon, .colon => some { s with expect := .value }
  | .more, t =>
    match t, s.frames with
    | .comma, .arr _ _ :: _ => some { s with expect := .value }
    | .comma, .obj _ _ _ :: _ => some { s with expect := .key }
    | .closeArr, .arr _ _ :: _ => s.close
    | .closeObj, .obj _ _ _ :: _ => s.close
    | _, _ => none
  | _, _ => none

end State

/-- What is wanted of the value that the text writes; none when it is not JSON, or a wanted part has no
value. -/
def read? (w : Wanted) (cs : List Char) : Option Json := do
  let s ← (← tokens? (cs.length + 1) [] cs).foldlM State.step ⟨w, [], .value⟩
  match s.expect with
  | .done j => pure j
  | _ => none

/-- The value that the text writes; none when it is not JSON. -/
def ofChars? (cs : List Char) : Option Json := read? .whole cs

def ofText? (s : String) : Option Json := ofChars? s.toList

def ofOctets? (bs : Octets) : Option Json := (Utf8.decode bs).bind ofChars?

end LanguageHost.Json
