import LanguageHost.Json.Parser
import LanguageHost.Json.Printer

/-! Reading what was written: the tokens of indented text are those of the value, and the machine that
takes them makes the value again, as far as all of it is wanted. Numbers are left out. -/
namespace LanguageHost.Json

/-! Tokens. -/

/-- Wherever the text stands, these are its tokens. -/
def Scans (text : List Char) (ts : List Token) : Prop :=
  ∀ fuel done rest, (text ++ rest).length ≤ fuel → ∃ fuel', rest.length ≤ fuel' ∧
    tokens? fuel done (text ++ rest) = tokens? fuel' (ts.reverse ++ done) rest

theorem Scans.tokens_eq {text : List Char} {ts : List Token} (h : Scans text ts) :
    tokens? (text.length + 1) [] text = some ts := by
  obtain ⟨fuel, _, read⟩ := h (text.length + 1) [] [] (by simp)
  rw [List.append_nil, List.append_nil] at read
  rw [read]
  cases fuel <;> simp [tokens?]

theorem Scans.nil : Scans [] [] := fun fuel _ _ enough => ⟨fuel, enough, rfl⟩

theorem Scans.append {a b : List Char} {xs ys : List Token} (ha : Scans a xs) (hb : Scans b ys) :
    Scans (a ++ b) (xs ++ ys) := by
  intro fuel done rest enough
  rw [List.append_assoc] at enough ⊢
  obtain ⟨mid, enough', first⟩ := ha fuel done (b ++ rest) enough
  obtain ⟨last, enough'', second⟩ := hb mid (xs.reverse ++ done) rest enough'
  refine ⟨last, enough'', ?_⟩
  rw [first, second, List.reverse_append, List.append_assoc]

theorem Scans.one {c : Char} {ts : List Token}
    (step : ∀ fuel done rest, tokens? (fuel + 1) done (c :: rest) =
      tokens? fuel (ts.reverse ++ done) rest) : Scans [c] ts := by
  intro fuel done rest enough
  cases fuel with
  | zero => simp at enough
  | succ fuel => exact ⟨fuel, by simpa using enough, step fuel done rest⟩

theorem scans_space {c : Char} (space : isSpace c = true) : Scans [c] [] :=
  .one fun fuel done rest => by simp [tokens?, space]

theorem scans_spaces (n : Nat) : Scans (List.replicate n ' ') [] := by
  induction n with
  | zero => exact .nil
  | succ n ih => exact (scans_space (c := ' ') rfl).append ih

theorem scans_openArr : Scans ['['] [.openArr] := .one fun _ _ _ => rfl
theorem scans_closeArr : Scans [']'] [.closeArr] := .one fun _ _ _ => rfl
theorem scans_openObj : Scans ['\x7b'] [.openObj] := .one fun _ _ _ => rfl
theorem scans_closeObj : Scans ['\x7d'] [.closeObj] := .one fun _ _ _ => rfl
theorem scans_comma : Scans [','] [.comma] := .one fun _ _ _ => rfl
theorem scans_colon : Scans [':'] [.colon] := .one fun _ _ _ => rfl

theorem scans_null : Scans "null".toList [.value (some .null)] := by
  intro fuel done rest enough
  cases fuel with
  | zero => simp at enough
  | succ fuel =>
      refine ⟨fuel, by simp at enough; omega, ?_⟩
      simp [tokens?, isSpace, Text.afterStart?]

theorem scans_bool (b : Bool) :
    Scans (if b then "true" else "false").toList [.value (some (.bool b))] := by
  intro fuel done rest enough
  cases fuel with
  | zero => cases b <;> simp at enough
  | succ fuel =>
      refine ⟨fuel, by cases b <;> simp at enough <;> omega, ?_⟩
      cases b <;> simp [tokens?, isSpace, Text.afterStart?]

/-! Quoted text. -/

theorem hexUnit?_control (rest : List Char) {n : Nat} (small : n < 32) :
    hexUnit? ('0' :: '0' :: hexDigit (n / 16) :: hexDigit (n % 16) :: rest) = some (n, rest) := by
  have digits : ∀ n < 32, [ '0', '0', hexDigit (n / 16), hexDigit (n % 16)].all Text.isHexDigit = true ∧
      Text.numeral 16 [ '0', '0', hexDigit (n / 16), hexDigit (n % 16)] = n := by decide
  obtain ⟨hex, value⟩ := digits n small
  rw [hexUnit?, if_pos hex, value]

theorem escape?_control (c : Char) (rest : List Char) (control : c < ' ') :
    escape? ('u' :: '0' :: '0' :: hexDigit (c.toNat / 16) :: hexDigit (c.toNat % 16) :: rest) =
      some (some c, rest) := by
  have small : c.toNat < 32 := control
  rw [escape?, hexUnit?_control rest small]
  have low : ¬ (0xDC00 ≤ c.toNat ∧ c.toNat < 0xE000) := by omega
  have high : ¬ (0xD800 ≤ c.toNat ∧ c.toNat < 0xDC00) := by omega
  simp only [Option.bind_eq_bind, Option.bind_some, if_neg low, if_neg high, Char.ofNat_toNat]
  rfl

/-- A quoted character is read back. -/
theorem string?_quoteChar (c : Char) (fuel : Nat) (done rest : List Char) :
    string? (fuel + 1) (some done) (quoteChar c ++ rest) = string? fuel (some (c :: done)) rest := by
  by_cases quote : c = '"'
  · subst c; rfl
  by_cases backslash : c = '\\'
  · subst c; rfl
  by_cases backspace : c = '\x08'
  · subst c; rfl
  by_cases feed : c = '\x0c'
  · subst c; rfl
  by_cases line : c = '\n'
  · subst c; rfl
  by_cases ret : c = '\r'
  · subst c; rfl
  by_cases tab : c = '\t'
  · subst c; rfl
  unfold quoteChar
  rw [if_neg quote, if_neg backslash, if_neg backspace, if_neg feed, if_neg line, if_neg ret,
    if_neg tab]
  by_cases control : c < ' '
  · rw [if_pos control]
    have read := escape?_control c rest control
    simp only [List.cons_append, List.nil_append]
    rw [string?, read]
    rfl
  · rw [if_neg control, List.cons_append, List.nil_append]
    rw [string?, if_neg control]
    · rfl
    · exact quote
    · exact backslash

theorem string?_quoted (cs : List Char) {fuel : Nat} (done rest : List Char) (enough : cs.length < fuel) :
    string? fuel (some done) (cs.flatMap quoteChar ++ '"' :: rest) =
      some (some (String.ofList (done.reverse ++ cs)), rest) := by
  induction cs generalizing fuel done with
  | nil =>
      cases fuel with
      | zero => simp at enough
      | succ fuel => simp [string?]
  | cons c cs ih =>
      cases fuel with
      | zero => simp at enough
      | succ fuel =>
          rw [List.flatMap_cons, List.append_assoc, string?_quoteChar, ih]
          · simp
          · simpa using enough

theorem length_le_quoted (cs : List Char) : cs.length ≤ (cs.flatMap quoteChar).length := by
  induction cs with
  | nil => exact Nat.le_refl 0
  | cons c cs ih =>
      have one : 1 ≤ (quoteChar c).length := by
        unfold quoteChar
        repeat' split
        all_goals simp
      rw [List.flatMap_cons, List.length_append, List.length_cons]
      omega

theorem scans_quote (s : String) : Scans (quote s).toList [.text (some s)] := by
  intro fuel done rest enough
  have longer := length_le_quoted s.toList
  have text : (quote s).toList ++ rest = '"' :: (s.toList.flatMap quoteChar ++ '"' :: rest) := by
    simp [quote]
  rw [text] at enough ⊢
  cases fuel with
  | zero => simp at enough
  | succ fuel =>
      simp only [List.length_cons, List.length_append] at enough
      refine ⟨fuel, by omega, ?_⟩
      have room : s.toList.length < fuel + 1 := by omega
      have read := string?_quoted s.toList [] rest room
      simp [tokens?, isSpace, read]

/-! Values. -/

mutual

/-- No number is anywhere in the value. -/
def Numberless : Json → Prop
  | .int _ | .float _ => False
  | .arr items => NumberlessItems items
  | .obj members => NumberlessMembers members
  | _ => True

def NumberlessItems : List Json → Prop
  | [] => True
  | j :: js => Numberless j ∧ NumberlessItems js

def NumberlessMembers : List (String × Json) → Prop
  | [] => True
  | (_, j) :: rest => Numberless j ∧ NumberlessMembers rest

end

mutual

/-- The tokens that write a value. -/
def writing : Json → List Token
  | .str s => [.text (some s)]
  | .arr items => .openArr :: (writingItems items ++ [.closeArr])
  | .obj members => .openObj :: (writingMembers members ++ [.closeObj])
  | j => [.value (some j)]

def writingItems : List Json → List Token
  | [] => []
  | [j] => writing j
  | j :: js => writing j ++ .comma :: writingItems js

def writingMembers : List (String × Json) → List Token
  | [] => []
  | [(k, j)] => .text (some k) :: .colon :: writing j
  | (k, j) :: rest => .text (some k) :: .colon :: (writing j ++ .comma :: writingMembers rest)

end

theorem scans_indent (depth : Nat) : Scans (indent depth).toList [] := by
  rw [indent, String.toList_ofList]
  exact scans_spaces _

theorem scans_newline : Scans ['\n'] [] := scans_space rfl

/-- A container with its content on lines of their own. -/
theorem scans_block {opening closing : Char} {t u : Token} {content : String} {ts : List Token}
    (depth : Nat) (opens : Scans [opening] [t]) (closes : Scans [closing] [u])
    (inside : Scans content.toList ts) :
    Scans (String.ofList [opening, '\n'] ++ content ++ "\n" ++ indent depth ++
      String.ofList [closing]).toList (t :: (ts ++ [u])) := by
  have text := ((((opens.append scans_newline).append inside).append scans_newline).append
    (scans_indent depth)).append closes
  simpa using text

/-- One entry of a container and those behind it. -/
theorem scans_entry {entry others : String} {ts us : List Token} (first : Scans entry.toList ts)
    (behind : Scans others.toList us) :
    Scans (entry ++ ",\n" ++ others).toList (ts ++ .comma :: us) := by
  have text := ((first.append scans_comma).append scans_newline).append behind
  simpa using text

theorem scans_member {value : String} {ts : List Token} (depth : Nat) (k : String)
    (h : Scans value.toList ts) :
    Scans (indent depth ++ quote k ++ ": " ++ value).toList (.text (some k) :: .colon :: ts) := by
  have text := ((((scans_indent depth).append (scans_quote k)).append scans_colon).append
    (scans_space (c := ' ') rfl)).append h
  simpa using text

mutual

theorem scans_pretty (depth : Nat) (j : Json) (plain : Numberless j) :
    Scans (pretty depth j).toList (writing j) := by
  match j, plain with
  | .null, _ => exact scans_null
  | .bool b, _ => exact scans_bool b
  | .str s, _ => exact scans_quote s
  | .arr [], _ => simpa [pretty, writing, writingItems] using scans_openArr.append scans_closeArr
  | .arr (j :: js), plain =>
      exact scans_block depth scans_openArr scans_closeArr (scans_items (depth + 1) (j :: js) plain)
  | .obj [], _ => simpa [pretty, writing, writingMembers] using scans_openObj.append scans_closeObj
  | .obj (m :: ms), plain =>
      exact scans_block depth scans_openObj scans_closeObj (scans_members (depth + 1) (m :: ms) plain)

theorem scans_items (depth : Nat) (items : List Json) (plain : NumberlessItems items) :
    Scans (prettyItems depth items).toList (writingItems items) := by
  match items, plain with
  | [], _ => exact .nil
  | [j], plain =>
      have text := (scans_indent depth).append (scans_pretty depth j plain.1)
      simpa [prettyItems, writingItems] using text
  | j :: k :: js, plain =>
      have text := (scans_indent depth).append (scans_pretty depth j plain.1)
      rw [← String.toList_append] at text
      exact scans_entry text (scans_items depth (k :: js) plain.2)

theorem scans_members (depth : Nat) (members : List (String × Json))
    (plain : NumberlessMembers members) :
    Scans (prettyMembers depth members).toList (writingMembers members) := by
  match members, plain with
  | [], _ => exact .nil
  | [(k, j)], plain => exact scans_member depth k (scans_pretty depth j plain.1)
  | (k, j) :: m :: ms, plain =>
      exact scans_entry (scans_member depth k (scans_pretty depth j plain.1))
        (scans_members depth (m :: ms) plain.2)

end

/-! The machine. -/

mutual

/-- All of the value is wanted. -/
def Covers (w : Wanted) : Json → Prop
  | .arr items => w.isNothing = false ∧ CoversItems w 0 items
  | .obj members => w.isNothing = false ∧ CoversMembers w members
  | _ => w.isNothing = false

def CoversItems (w : Wanted) (place : Nat) : List Json → Prop
  | [] => True
  | j :: js => Covers (w.item place) j ∧ CoversItems w (place + 1) js

def CoversMembers (w : Wanted) : List (String × Json) → Prop
  | [] => True
  | (k, j) :: rest => Covers (w.member k) j ∧ CoversMembers w rest

end

theorem Covers.isNothing {w : Wanted} {j : Json} (h : Covers w j) : w.isNothing = false := by
  cases j with
  | arr items => exact h.1
  | obj members => exact h.1
  | _ => exact h

mutual

/-- How deep containers stand in each other. -/
def depth : Json → Nat
  | .arr items => depthItems items + 1
  | .obj members => depthMembers members + 1
  | _ => 0

def depthItems : List Json → Nat
  | [] => 0
  | j :: js => max (depth j) (depthItems js)

def depthMembers : List (String × Json) → Nat
  | [] => 0
  | (_, j) :: rest => max (depth j) (depthMembers rest)

end

namespace State
variable {s : State} {w : Wanted} {outer : List Frame}

/-- What is wanted of the next value. -/
def asked (s : State) : Wanted := (s.frames.head?.map Frame.next).getD s.wanted

/-- A value may come next. -/
def Open (s : State) : Prop := s.expect = .value ∨ s.expect = .firstItem

/-- What is given does not depend on what was expected. -/
theorem give_eq (frames : List Frame) (expect : Expect) (j : Json) :
    give { s with frames := frames, expect := expect } outer j = s.give outer j := by
  cases outer with
  | nil => rfl
  | cons f outer => cases f <;> rfl

/-- The token begins a value. -/
def Begins : Token → Prop
  | .value _ | .text _ | .openArr | .openObj => True
  | _ => False

theorem step_begin (ready : s.Open) (t : Token) (begins : Begins t) : s.step t = s.start t := by
  obtain ⟨wanted, frames, expect⟩ := s
  rcases ready with rfl | rfl
  · rfl
  · cases t with
    | value j => rfl
    | text s => rfl
    | openArr => rfl
    | openObj => rfl
    | _ => cases begins

theorem take?_some {j : Json} (wanted : w.isNothing = false) : w.take? (some j) = some j := by
  cases w with
  | nothing => cases wanted
  | _ => rfl

theorem step_value (ready : s.Open) {j : Json} (wanted : s.asked.isNothing = false) :
    s.step (.value (some j)) = some (s.give s.frames j) := by
  rw [step_begin ready (.value (some j)) trivial]
  change (s.asked.take? (some j)).map _ = _
  rw [take?_some wanted]
  rfl

theorem step_text (ready : s.Open) {text : String} (wanted : s.asked.isNothing = false) :
    s.step (.text (some text)) = some (s.give s.frames (.str text)) := by
  rw [step_begin ready (.text (some text)) trivial]
  change (s.asked.take? (some (.str text))).map _ = _
  rw [take?_some wanted]
  rfl

theorem step_openArr (ready : s.Open) (room : s.frames.length + 1 < depthLimit) :
    s.step .openArr = some { s with frames := .arr s.asked [] :: s.frames, expect := .firstItem } := by
  rw [step_begin ready .openArr trivial]
  exact if_pos (.inr room)

theorem step_openObj (ready : s.Open) (room : s.frames.length + 1 < depthLimit) :
    s.step .openObj = some { s with frames := .obj s.asked [] "" :: s.frames, expect := .firstKey } := by
  rw [step_begin ready .openObj trivial]
  exact if_pos (.inr room)

/-! What comes next inside of a container. -/

variable {items : List Json} {members : List (String × Json)} {key : String}

theorem step_closeArr (ready : s.expect = .more ∨ s.expect = .firstItem)
    (inside : s.frames = .arr w items :: outer) :
    s.step .closeArr = some (s.give outer (.arr items.reverse)) := by
  obtain ⟨wanted, frames, expect⟩ := s
  cases inside
  rcases ready with rfl | rfl <;> rfl

theorem step_closeObj (ready : s.expect = .more ∨ s.expect = .firstKey)
    (inside : s.frames = .obj w members key :: outer) :
    s.step .closeObj = some (s.give outer (.obj members.reverse)) := by
  obtain ⟨wanted, frames, expect⟩ := s
  cases inside
  rcases ready with rfl | rfl <;> rfl

theorem step_commaArr (ready : s.expect = .more) (inside : s.frames = .arr w items :: outer) :
    s.step .comma = some { s with expect := .value } := by
  obtain ⟨wanted, frames, expect⟩ := s
  cases inside
  cases ready
  rfl

theorem step_commaObj (ready : s.expect = .more) (inside : s.frames = .obj w members key :: outer) :
    s.step .comma = some { s with expect := .key } := by
  obtain ⟨wanted, frames, expect⟩ := s
  cases inside
  cases ready
  rfl

/-- A key and its colon. -/
theorem run_key (ready : s.expect = .firstKey ∨ s.expect = .key)
    (inside : s.frames = .obj w members key :: outer) (wanted : w.isNothing = false) (k : String) :
    [Token.text (some k), .colon].foldlM State.step s =
      some { s with frames := .obj w members k :: outer, expect := .value } := by
  obtain ⟨wanted, frames, expect⟩ := s
  cases inside
  cases w with
  | nothing => cases wanted
  | _ => rcases ready with rfl | rfl <;> rfl

end State

open State in
mutual

/-- The tokens of a value make it. -/
theorem run_value (j : Json) (s : State) (ready : s.Open) (covers : Covers s.asked j)
    (room : s.frames.length + depth j < depthLimit) :
    (writing j).foldlM State.step s = some (s.give s.frames j) := by
  match j, covers, room with
  | .null, covers, _ => exact congrArg (· >>= pure) (step_value ready covers)
  | .bool b, covers, _ => exact congrArg (· >>= pure) (step_value ready covers)
  | .int n, covers, _ => exact congrArg (· >>= pure) (step_value ready covers)
  | .float x, covers, _ => exact congrArg (· >>= pure) (step_value ready covers)
  | .str text, covers, _ => exact congrArg (· >>= pure) (step_text ready covers)
  | .arr items, covers, room =>
      have enough : s.frames.length + (depthItems items + 1) < depthLimit := room
      rw [writing, List.foldlM_cons, step_openArr ready (by omega)]
      refine (run_items items _ s.asked [] s.frames rfl (.inl ⟨rfl, rfl⟩) covers.2 (by omega)).trans ?_
      rw [give_eq]
      rfl
  | .obj members, covers, room =>
      have enough : s.frames.length + (depthMembers members + 1) < depthLimit := room
      rw [writing, List.foldlM_cons, step_openObj ready (by omega)]
      refine (run_members members _ s.asked [] "" s.frames rfl (.inl ⟨rfl, rfl⟩) covers.1 covers.2
        (by omega)).trans ?_
      rw [give_eq]
      rfl

theorem run_items (items : List Json) (s : State) (w : Wanted) (done : List Json)
    (outer : List Frame) (inside : s.frames = .arr w done :: outer)
    (ready : s.expect = .firstItem ∧ done = [] ∨ s.expect = .value ∧ items ≠ [])
    (covers : CoversItems w done.length items)
    (room : outer.length + 1 + depthItems items < depthLimit) :
    (writingItems items ++ [Token.closeArr]).foldlM State.step s =
      some (s.give outer (.arr (done.reverse ++ items))) := by
  have next : items ≠ [] → s.Open := fun _ => ready.elim (fun h => .inr h.1) fun h => .inl h.1
  have asked : s.asked = w.item done.length := by rw [State.asked, inside]; rfl
  have deep : s.frames.length = outer.length + 1 := by rw [inside]; rfl
  let given (j : Json) : State := s.give (.arr w done :: outer) j
  match items, ready, covers, room, next with
  | [], ready, _, _, _ =>
      rcases ready with ⟨first, rfl⟩ | ⟨_, none⟩
      · exact congrArg (· >>= pure) (step_closeArr (.inr first) inside)
      · exact absurd rfl none
  | [j], _, covers, room, next =>
      have room : outer.length + 1 + max (depth j) 0 < depthLimit := room
      have value := run_value j s (next (by simp)) (asked ▸ covers.1) (by omega)
      have close := step_closeArr (s := given j) (.inl rfl) rfl
      rw [writingItems, List.foldlM_append, value, inside]
      refine (congrArg (· >>= pure) close).trans ?_
      rw [List.reverse_cons]
      exact congrArg some (give_eq _ _ _)
  | j :: k :: js, _, covers, room, next =>
      have room : outer.length + 1 + max (depth j) (depthItems (k :: js)) < depthLimit := room
      have value := run_value j s (next (by simp)) (asked ▸ covers.1) (by omega)
      have comma := step_commaArr (s := given j) rfl rfl
      have rest := run_items (k :: js) { given j with expect := .value } w (j :: done) outer rfl (.inr ⟨rfl, by simp⟩) covers.2
        (by omega)
      have written : writingItems (j :: k :: js) = writing j ++ .comma :: writingItems (k :: js) := rfl
      rw [written, List.append_assoc, List.foldlM_append, value, inside, Option.bind_eq_bind,
        Option.bind_some, List.cons_append, List.foldlM_cons, comma]
      refine rest.trans ?_
      rw [List.reverse_cons, List.append_assoc]
      exact congrArg some (give_eq _ _ _)

theorem run_members (members : List (String × Json)) (s : State) (w : Wanted)
    (done : List (String × Json)) (key : String) (outer : List Frame)
    (inside : s.frames = .obj w done key :: outer)
    (ready : s.expect = .firstKey ∧ done = [] ∨ s.expect = .key ∧ members ≠ [])
    (wanted : w.isNothing = false) (covers : CoversMembers w members)
    (room : outer.length + 1 + depthMembers members < depthLimit) :
    (writingMembers members ++ [Token.closeObj]).foldlM State.step s =
      some (s.give outer (.obj (done.reverse ++ members))) := by
  let keyed (k : String) : State := { s with frames := .obj w done k :: outer, expect := .value }
  let given (k : String) (j : Json) : State := (keyed k).give (.obj w done k :: outer) j
  have begins (k : String) := run_key (ready.imp And.left And.left) inside wanted k
  match members, ready, covers, room with
  | [], ready, _, _ =>
      rcases ready with ⟨first, rfl⟩ | ⟨_, none⟩
      · exact congrArg (· >>= pure) (step_closeObj (.inr first) inside)
      · exact absurd rfl none
  | [(k, j)], _, covers, room =>
      have room : outer.length + 1 + max (depth j) 0 < depthLimit := room
      have value := run_value j (keyed k) (.inl rfl) covers.1 (by simp [keyed]; omega)
      have close := step_closeObj (s := given k j) (.inl rfl) rfl
      have written : writingMembers [(k, j)] ++ [Token.closeObj] =
          [.text (some k), .colon] ++ (writing j ++ [.closeObj]) := rfl
      rw [written, List.foldlM_append, begins, Option.bind_eq_bind, Option.bind_some,
        List.foldlM_append, value]
      refine (congrArg (· >>= pure) close).trans ?_
      rw [List.reverse_cons]
      exact congrArg some (give_eq _ _ _)
  | (k, j) :: m :: ms, _, covers, room =>
      have room : outer.length + 1 + max (depth j) (depthMembers (m :: ms)) < depthLimit := room
      have value := run_value j (keyed k) (.inl rfl) covers.1 (by simp [keyed]; omega)
      have comma := step_commaObj (s := given k j) rfl rfl
      have rest := run_members (m :: ms) { given k j with expect := .key } w ((k, j) :: done) k outer rfl (.inr ⟨rfl, by simp⟩) wanted
        covers.2 (by omega)
      have written : writingMembers ((k, j) :: m :: ms) ++ [Token.closeObj] =
          [.text (some k), .colon] ++
            (writing j ++ .comma :: (writingMembers (m :: ms) ++ [.closeObj])) := by
        simp [writingMembers]
      rw [written, List.foldlM_append, begins, Option.bind_eq_bind, Option.bind_some,
        List.foldlM_append, value, Option.bind_eq_bind, Option.bind_some, List.foldlM_cons, comma]
      refine rest.trans ?_
      rw [List.reverse_cons, List.append_assoc]
      exact congrArg some (give_eq _ _ _)

end

/-- What was written is read again, if all of it is wanted. -/
theorem read?_pretty {w : Wanted} {j : Json} (plain : Numberless j) (covers : Covers w j)
    (room : depth j < depthLimit) (indentation : Nat) :
    read? w (pretty indentation j).toList = some j := by
  have taken := run_value j ⟨w, [], .value⟩ (.inl rfl) covers (by simpa using room)
  unfold read?
  rw [(scans_pretty indentation j plain).tokens_eq, Option.bind_eq_bind, Option.bind_some, taken]
  rfl

end LanguageHost.Json
