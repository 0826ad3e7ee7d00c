import LanguageHost.Proofs.Json.Pretty
import LanguageHost.Proofs.Text.Blank

/-! Values on one line are read again, numbers too unless they are floats. What ends a numeral is the
character behind it, so its tokens are told by what follows as well. -/
namespace LanguageHost.Json

/-! Numerals. -/

/-- A numeral in front of the text is at its end. -/
def Stops (rest : List Char) : Prop :=
  ∀ c ∈ rest.head?, c.isDigit = false ∧ c ≠ '.' ∧ c ≠ 'e' ∧ c ≠ 'E'

theorem stops_nil : Stops [] := by
  intro c there
  cases there

theorem stops_cons {c : Char} (h : c.isDigit = false ∧ c ≠ '.' ∧ c ≠ 'e' ∧ c ≠ 'E')
    (rest : List Char) : Stops (c :: rest) := by
  intro d there
  cases there
  exact h

theorem takeWhile_digits {digits rest : List Char} (all : ∀ c ∈ digits, c.isDigit = true)
    (stops : Stops rest) : (digits ++ rest).takeWhile Text.isDigit = digits ∧
      (digits ++ rest).dropWhile Text.isDigit = rest := by
  induction digits with
  | nil =>
    cases rest with
    | nil => exact ⟨rfl, rfl⟩
    | cons c rest =>
      have other : Text.isDigit c = false := (Text.isDigit_eq c).trans (stops c rfl).1
      simp [other]
  | cons c digits ih =>
    have digit : Text.isDigit c = true := (Text.isDigit_eq c).trans (all c (by simp))
    obtain ⟨taken, left⟩ := ih fun d there => all d (List.mem_cons_of_mem _ there)
    simp [digit, taken, left]

def sign : Bool → List Char
  | true => ['-']
  | false => []

/-- Digits that nothing goes on behind are a numeral, with a sign or without. -/
theorem next?_digits (negative : Bool) {digits rest : List Char} (all : ∀ c ∈ digits, c.isDigit = true)
    (some : digits ≠ []) (lead : ∀ ds, digits = '0' :: ds → ds = []) (stops : Stops rest) :
    Numeral.next? (sign negative ++ digits ++ rest) = .some (⟨negative, digits, none, none⟩, rest) := by
  obtain ⟨taken, left⟩ := takeWhile_digits all stops
  have unsigned : ∀ tail, digits ++ rest ≠ '-' :: tail := by
    intro tail same
    obtain ⟨empty, -⟩ | ⟨ds, rfl, -⟩ := List.append_eq_cons_iff.mp same
    · exact some empty
    · exact absurd (all '-' (by simp)) (by decide)
  have lone : ∀ d ds, digits ≠ '0' :: d :: ds := by
    intro d ds same
    cases lead (d :: ds) same
  cases rest with
  | nil =>
    cases negative with
    | false =>
      simp only [sign, Numeral.next?, List.nil_append, taken, left]
      rfl
    | true =>
      simp only [sign, Numeral.next?, List.cons_append, List.nil_append, taken, left]
      rfl
  | cons c rest =>
    obtain ⟨-, point, small, large⟩ := stops c rfl
    cases negative with
    | false => simp [sign, Numeral.next?, taken, left, point, small, large]
    | true => simp [sign, Numeral.next?, taken, left, point, small, large]

theorem significand_eq {digits : List Char} (all : ∀ c ∈ digits, c.isDigit = true) {n : Nat}
    (fits : Nat.ofDigitChars 10 digits n ≤ wordMax) :
    significand n digits = (Nat.ofDigitChars 10 digits n, digits.length, 0) := by
  induction digits generalizing n with
  | nil => rfl
  | cons c digits ih =>
    have value : n * 10 + Text.digitValue c = 10 * n + (c.toNat - '0'.toNat) := by
      rw [Text.digitValue_eq (all c (by simp)), Nat.mul_comm]
    rw [Nat.ofDigitChars_cons] at fits ⊢
    have small : 10 * n + (c.toNat - '0'.toNat) ≤ wordMax := Nat.le_trans (Text.le_ofDigitChars _ _) fits
    have rest := ih (fun d there => all d (List.mem_cons_of_mem _ there)) fits
    simp only [significand, value, if_pos small, rest, List.length_cons]

/-- An integer of 64 bits, with a sign or without one. -/
def Fits (n : Int) : Prop := -0x8000000000000000 ≤ n ∧ n ≤ wordMax

theorem toString_int (n : Int) : (toString n).toList = sign (n < 0) ++ Nat.toDigits 10 n.natAbs := by
  cases n with
  | ofNat m =>
    have natural : ¬ (m : Int) < 0 := by omega
    change (toString m).toList = _
    simp [natural, sign]
  | negSucc m =>
    change ("-" ++ toString (m + 1)).toList = _
    simp [sign]

/-- An integer is read from its digits. -/
theorem next?_int {n : Int} (fits : Fits n) {rest : List Char} (stops : Stops rest) :
    ∃ numeral : Numeral, Numeral.next? ((toString n).toList ++ rest) = some (numeral, rest) ∧
      numeral.value? = some (.int n) := by
  obtain ⟨low, high⟩ := fits
  refine ⟨⟨n < 0, Nat.toDigits 10 n.natAbs, none, none⟩, ?_, ?_⟩
  · rw [toString_int]
    apply next?_digits
    · exact fun c => Text.isDigit_of_mem_toDigits
    · exact Nat.toDigits_ne_nil
    · exact fun ds => Text.toDigits_zero
    · exact stops
  · have small : n.natAbs ≤ wordMax := by
      unfold wordMax at high ⊢
      omega
    have value : significand 0 (Nat.toDigits 10 n.natAbs) =
        (n.natAbs, (Nat.toDigits 10 n.natAbs).length, 0) := by
      rw [significand_eq (fun c => Text.isDigit_of_mem_toDigits), Nat.ofDigitChars_ten_toDigits]
      rwa [Nat.ofDigitChars_ten_toDigits]
    by_cases negative : n < 0
    · have whole : ¬ (n.natAbs = 0 ∨ n.natAbs > 0x8000000000000000) := by omega
      have back : -(n.natAbs : Int) = n := by omega
      simp only [Numeral.value?, value, Option.isNone_none, and_self, negative, decide_true, if_true,
        if_neg whole, back]
    · have back : (n.natAbs : Int) = n := by omega
      simp only [Numeral.value?, value, Option.isNone_none, and_self, negative, decide_false, if_true,
        Bool.false_eq_true, if_false, back]

/-! Tokens. -/

/-- Where no numeral goes on behind the text, these are its tokens. -/
def Spells (text : List Char) (ts : List Token) : Prop :=
  ∀ fuel done rest, Stops rest → (text ++ rest).length ≤ fuel → ∃ fuel', rest.length ≤ fuel' ∧
    tokens? fuel done (text ++ rest) = tokens? fuel' (ts.reverse ++ done) rest

theorem Scans.spells {text : List Char} {ts : List Token} (h : Scans text ts) : Spells text ts :=
  fun fuel done rest _ => h fuel done rest

theorem Spells.tokens_eq {text : List Char} {ts : List Token} (h : Spells text ts) :
    tokens? (text.length + 1) [] text = some ts := by
  obtain ⟨fuel, _, read⟩ := h (text.length + 1) [] [] stops_nil (by simp)
  rw [List.append_nil, List.append_nil] at read
  rw [read]
  cases fuel <;> simp [tokens?]

/-- What comes second ends a numeral that comes first, whatever follows. -/
theorem Spells.append {a b : List Char} {xs ys : List Token} (ha : Spells a xs) (hb : Spells b ys)
    (ends : ∀ rest, Stops rest → Stops (b ++ rest)) : Spells (a ++ b) (xs ++ ys) := by
  intro fuel done rest stops enough
  rw [List.append_assoc] at enough ⊢
  obtain ⟨mid, enough', first⟩ := ha fuel done (b ++ rest) (ends rest stops) enough
  obtain ⟨last, enough'', second⟩ := hb mid (xs.reverse ++ done) rest stops enough'
  refine ⟨last, enough'', ?_⟩
  rw [first, second, List.reverse_append, List.append_assoc]

theorem Spells.before {c : Char} {a b : List Char} {xs ys : List Token} (ha : Spells a xs)
    (hb : Spells (c :: b) ys) (ends : c.isDigit = false ∧ c ≠ '.' ∧ c ≠ 'e' ∧ c ≠ 'E') :
    Spells (a ++ c :: b) (xs ++ ys) :=
  ha.append hb fun rest _ => stops_cons ends (b ++ rest)

theorem Scans.before {a b : List Char} {xs ys : List Token} (ha : Scans a xs) (hb : Spells b ys) :
    Spells (a ++ b) (xs ++ ys) := by
  intro fuel done rest stops enough
  rw [List.append_assoc] at enough ⊢
  obtain ⟨mid, enough', first⟩ := ha fuel done (b ++ rest) enough
  obtain ⟨last, enough'', second⟩ := hb mid (xs.reverse ++ done) rest stops enough'
  refine ⟨last, enough'', ?_⟩
  rw [first, second, List.reverse_append, List.append_assoc]

/-- The characters that begin something else than a numeral. -/
def openings : List Char :=
  [' ', '\n', '\t', '\r', '[', ']', '\x7b', '\x7d', ',', ':', '"', 'n', 't', 'f']

theorem tokens?_numeral {c : Char} {n : Numeral} {rest after : List Char}
    (h : c = '-' ∨ c.isDigit = true) (read : Numeral.next? (c :: rest) = some (n, after)) (fuel : Nat)
    (done : List Token) :
    tokens? (fuel + 1) done (c :: rest) = tokens? fuel (.value n.value? :: done) after := by
  have other : ∀ d ∈ openings, ¬ (d = '-' ∨ d.isDigit = true) := by simp [openings]
  have ne : ∀ d ∈ openings, ¬ c = d ∧ ¬ d = c := by
    intro d there
    constructor
    · rintro rfl
      exact other c there h
    · rintro rfl
      exact other d there h
  simp only [openings, List.mem_cons, List.not_mem_nil, or_false, forall_eq_or_imp, forall_eq] at ne
  simp [tokens?, isSpace, Text.afterStart?, ne, read]

theorem exists_cons_toString (n : Int) :
    ∃ c cs, (toString n).toList = c :: cs ∧ (c = '-' ∨ c.isDigit = true) := by
  rw [toString_int]
  cases digits : Nat.toDigits 10 n.natAbs with
  | nil => exact absurd digits Nat.toDigits_ne_nil
  | cons c cs =>
    by_cases negative : n < 0
    · exact ⟨'-', c :: cs, by simp [sign, negative], .inl rfl⟩
    · refine ⟨c, cs, by simp [sign, negative], .inr ?_⟩
      apply Text.isDigit_of_mem_toDigits (n := n.natAbs)
      simp [digits]

theorem spells_int {n : Int} (fits : Fits n) : Spells (toString n).toList [.value (some (.int n))] := by
  intro fuel done rest stops enough
  obtain ⟨numeral, read, value⟩ := next?_int fits stops
  obtain ⟨c, cs, text, begins⟩ := exists_cons_toString n
  rw [text] at read enough ⊢
  cases fuel with
  | zero => simp at enough
  | succ fuel =>
    refine ⟨fuel, by simp at enough; omega, ?_⟩
    rw [List.cons_append] at read ⊢
    rw [tokens?_numeral begins read, value]
    rfl

/-! Values. -/

mutual

/-- No float is in the value, and each integer has 64 bits. -/
def Integral : Json → Prop
  | .int n => Fits n
  | .float _ => False
  | .arr items => IntegralItems items
  | .obj members => IntegralMembers members
  | _ => True

def IntegralItems : List Json → Prop
  | [] => True
  | j :: js => Integral j ∧ IntegralItems js

def IntegralMembers : List (String × Json) → Prop
  | [] => True
  | (_, j) :: rest => Integral j ∧ IntegralMembers rest

end

theorem integralMembers_iff {members : List (String × Json)} :
    IntegralMembers members ↔ ∀ entry ∈ members, Integral entry.2 := by
  induction members with
  | nil => simp [IntegralMembers]
  | cons entry members ih => simp [IntegralMembers, ih]

theorem spells_entry {entry others : String} {ts us : List Token} (first : Spells entry.toList ts)
    (behind : Spells others.toList us) :
    Spells (entry ++ "," ++ others).toList (ts ++ .comma :: us) := by
  have text := first.before (scans_comma.before behind) (by decide)
  simpa using text

theorem spells_member {value : String} {ts : List Token} (k : String) (h : Spells value.toList ts) :
    Spells (quote k ++ ":" ++ value).toList (.text (some k) :: .colon :: ts) := by
  have text := ((scans_quote k).append scans_colon).before h
  simpa using text

mutual

theorem spells_compact (j : Json) (plain : Integral j) : Spells (compact j).toList (writing j) := by
  match j, plain with
  | .null, _ => exact scans_null.spells
  | .bool b, _ => exact (scans_bool b).spells
  | .int n, plain => exact spells_int plain
  | .str s, _ => exact (scans_quote s).spells
  | .arr items, plain =>
    have inside := (spells_items items plain).before scans_closeArr.spells (by decide)
    simpa [compact, writing] using scans_openArr.before inside
  | .obj members, plain =>
    have inside := (spells_members members plain).before scans_closeObj.spells (by decide)
    simpa [compact, writing] using scans_openObj.before inside

theorem spells_items (items : List Json) (plain : IntegralItems items) :
    Spells (compactItems items).toList (writingItems items) := by
  match items, plain with
  | [], _ => exact Scans.nil.spells
  | [j], plain => exact spells_compact j plain.1
  | j :: k :: js, plain => exact spells_entry (spells_compact j plain.1) (spells_items (k :: js) plain.2)

theorem spells_members (members : List (String × Json)) (plain : IntegralMembers members) :
    Spells (compactMembers members).toList (writingMembers members) := by
  match members, plain with
  | [], _ => exact Scans.nil.spells
  | [(k, j)], plain => exact spells_member k (spells_compact j plain.1)
  | (k, j) :: m :: ms, plain =>
    exact spells_entry (spells_member k (spells_compact j plain.1)) (spells_members (m :: ms) plain.2)

end

mutual

theorem covers_whole (j : Json) : Covers .whole j := by
  match j with
  | .null | .bool _ | .int _ | .float _ | .str _ => exact rfl
  | .arr items => exact ⟨rfl, covers_wholeItems 0 items⟩
  | .obj members => exact ⟨rfl, covers_wholeMembers members⟩

theorem covers_wholeItems (place : Nat) (items : List Json) : CoversItems .whole place items := by
  match items with
  | [] => trivial
  | j :: js => exact ⟨covers_whole j, covers_wholeItems (place + 1) js⟩

theorem covers_wholeMembers (members : List (String × Json)) : CoversMembers .whole members := by
  match members with
  | [] => trivial
  | (_, j) :: rest => exact ⟨covers_whole j, covers_wholeMembers rest⟩

end

/-- What was written on one line is read again. -/
theorem ofChars?_compact {j : Json} (plain : Integral j) (room : depth j < depthLimit) :
    ofChars? (compact j).toList = some j := by
  have taken := run_value j ⟨.whole, [], .value⟩ (.inl rfl) (covers_whole j) (by simpa using room)
  unfold ofChars? read?
  rw [(spells_compact j plain).tokens_eq, Option.bind_eq_bind, Option.bind_some, taken]
  rfl

end LanguageHost.Json
