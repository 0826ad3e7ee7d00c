import LanguageHost.Text.Blank

/-! Trimming and cutting, said by what stands around: a text that begins and ends without blanks comes
back from between any blanks, a cut is at the first separator, and the words of a text are the words of its
parts, where it is parted at a blank. Behind that, digits and the numbers that they write. -/
namespace LanguageHost.Text

/-- Only blank characters. -/
def Blank (cs : List Char) : Prop := ∀ c ∈ cs, isBlank c = true

theorem Blank.dropWhile_append (h : Blank cs) (rest : List Char) :
    (cs ++ rest).dropWhile isBlank = rest.dropWhile isBlank := by
  induction cs with
  | nil => rfl
  | cons c cs ih =>
    rw [List.cons_append, List.dropWhile_cons_of_pos (h c (by simp))]
    exact ih fun c hc => h c (by simp [hc])

theorem dropWhile_solid (h : ∀ c ∈ cs, isBlank c = false) (rest : List Char) (ne : cs ≠ []) :
    (cs ++ rest).dropWhile isBlank = cs ++ rest := by
  cases cs with
  | nil => exact absurd rfl ne
  | cons c cs =>
    have solid : ¬ isBlank c = true := by
      rw [h c List.mem_cons_self]
      exact Bool.false_ne_true
    rw [List.cons_append, List.dropWhile_cons_of_neg solid]

theorem trimmed_between {front inner back : List Char} (hf : Blank front) (hb : Blank back)
    (solid : ∀ c ∈ inner, isBlank c = false) (ne : inner ≠ []) :
    trimmed (front ++ inner ++ back) = inner := by
  have back' : Blank back.reverse := fun c hc => hb c (by simpa using hc)
  have solid' : ∀ c ∈ inner.reverse, isBlank c = false := fun c hc => solid c (by simpa using hc)
  have tail := dropWhile_solid solid' [] (by simpa using ne)
  rw [List.append_nil] at tail
  rw [trimmed, trimStart, List.append_assoc, hf.dropWhile_append, dropWhile_solid solid back ne,
    trimEnd, List.reverse_append, back'.dropWhile_append, tail, List.reverse_reverse]

theorem blank_takeWhile (cs : List Char) : Blank (cs.takeWhile isBlank) := by
  intro c hc
  exact List.all_eq_true.mp List.all_takeWhile c hc

/-- A text is what trimming leaves of it, between blanks. -/
theorem exists_eq_trimmed (cs : List Char) :
    ∃ front back, Blank front ∧ Blank back ∧ cs = front ++ trimmed cs ++ back := by
  refine ⟨cs.takeWhile isBlank, ((trimStart cs).reverse.takeWhile isBlank).reverse,
    blank_takeWhile cs, fun c hc => blank_takeWhile _ c (by simpa using hc), ?_⟩
  have back : trimEnd (trimStart cs) ++ ((trimStart cs).reverse.takeWhile isBlank).reverse =
      trimStart cs := by
    rw [trimEnd, ← List.reverse_append, List.takeWhile_append_dropWhile, List.reverse_reverse]
  rw [trimmed, List.append_assoc, back, trimStart, List.takeWhile_append_dropWhile]

theorem dropWhile_of_head {cs : List Char} (h : ∀ c ∈ cs.head?, isBlank c = false) :
    cs.dropWhile isBlank = cs := by
  cases cs with
  | nil => rfl
  | cons c cs => exact List.dropWhile_cons_of_neg (by simp [h c rfl])

/-- Blanks inside a text stay. -/
theorem trimmed_of_ends {cs : List Char} (first : ∀ c ∈ cs.head?, isBlank c = false)
    (last : ∀ c ∈ cs.getLast?, isBlank c = false) : trimmed cs = cs := by
  rw [trimmed, trimStart, dropWhile_of_head first, trimEnd,
    dropWhile_of_head (by rwa [List.head?_reverse]), List.reverse_reverse]

theorem afterStart?_append (start rest : List Char) : afterStart? start (start ++ rest) = some rest := by
  induction start with
  | nil => rfl
  | cons c start ih => simp [afterStart?, ih]

theorem cut?_eq_none_iff {sep : Char} {cs : List Char} : cut? sep cs = none ↔ sep ∉ cs := by
  induction cs with
  | nil => simp [cut?]
  | cons c cs ih =>
    rw [cut?, List.mem_cons, not_or]
    split
    · next same => simp [same]
    · next other => rw [Option.map_eq_none_iff, ih, and_iff_right (Ne.symm other)]

theorem cut?_append {sep : Char} {front : List Char} (h : sep ∉ front) (back : List Char) :
    cut? sep (front ++ sep :: back) = some (front, back) := by
  induction front with
  | nil => simp [cut?]
  | cons c front ih =>
    simp only [List.mem_cons, not_or] at h
    simp [cut?, ih h.2, Ne.symm h.1]

theorem not_mem_of_cut? {sep : Char} {cs front back : List Char}
    (h : cut? sep cs = some (front, back)) : sep ∉ front := by
  induction cs generalizing front with
  | nil => simp [cut?] at h
  | cons c cs ih =>
    simp only [cut?] at h
    split at h
    · cases h
      simp
    · next other =>
        obtain ⟨⟨x, y⟩, hxy, he⟩ := Option.map_eq_some_iff.mp h
        cases he
        simp only [List.mem_cons, not_or]
        exact ⟨Ne.symm other, ih hxy⟩

theorem fields_of_not_mem {sep : Char} {cs : List Char} (h : sep ∉ cs) : fields sep cs = [cs] := by
  induction cs with
  | nil => rfl
  | cons c cs ih =>
    simp only [List.mem_cons, not_or] at h
    rw [fields, if_neg (Ne.symm h.1), ih h.2]

theorem fields_ne_nil (sep : Char) (cs : List Char) : fields sep cs ≠ [] := by
  cases cs with
  | nil => simp [fields]
  | cons c cs =>
    rw [fields]
    split
    · simp
    · cases fields sep cs <;> simp

theorem not_mem_of_mem_fields {sep : Char} {cs f : List Char} (h : f ∈ fields sep cs) : sep ∉ f := by
  induction cs generalizing f with
  | nil => simp_all [fields]
  | cons c cs ih =>
    rw [fields] at h
    split at h
    · rcases List.mem_cons.mp h with rfl | h
      · simp
      · exact ih h
    · next other =>
        cases hf : fields sep cs with
        | nil => exact absurd hf (fields_ne_nil sep cs)
        | cons g gs =>
          rw [hf] at h ih
          rcases List.mem_cons.mp h with rfl | h
          · simp only [List.mem_cons, not_or]
            exact ⟨Ne.symm other, ih (by simp)⟩
          · exact ih (by simp [h])

theorem fields_append (sep : Char) (front back : List Char) :
    fields sep (front ++ sep :: back) = fields sep front ++ fields sep back := by
  induction front with
  | nil => simp [fields]
  | cons c front ih =>
    rw [List.cons_append, fields, fields, ih]
    split
    · rfl
    · cases h : fields sep front with
      | nil => exact absurd h (fields_ne_nil sep front)
      | cons f fs => rfl

theorem fields_intercalate {sep : Char} {parts : List (List Char)} (h : ∀ p ∈ parts, sep ∉ p)
    (ne : parts ≠ []) : fields sep ([sep].intercalate parts) = parts := by
  induction parts with
  | nil => contradiction
  | cons p parts ih =>
    have first := h p List.mem_cons_self
    cases parts with
    | nil => rw [List.intercalate_singleton, fields_of_not_mem first]
    | cons q parts =>
      rw [List.intercalate_cons_cons, List.append_assoc, List.singleton_append, fields_append,
        fields_of_not_mem first, ih (fun p hp => h p (List.mem_cons_of_mem _ hp)) (by simp)]
      rfl

theorem intercalate_fields (sep : Char) (cs : List Char) : [sep].intercalate (fields sep cs) = cs := by
  induction cs with
  | nil => rfl
  | cons c cs ih =>
      unfold fields
      split
      · next same =>
          rw [List.intercalate_cons_of_ne_nil (fields_ne_nil _ _), ih, same]
          rfl
      · cases rest : fields sep cs with
        | nil => exact absurd rest (fields_ne_nil _ _)
        | cons f fs =>
            rw [rest] at ih
            rw [← ih]
            cases fs with
            | nil => simp only [List.intercalate_singleton]
            | cons g fs =>
                rw [List.intercalate_cons_of_ne_nil (List.cons_ne_nil _ _),
                  List.intercalate_cons_of_ne_nil (List.cons_ne_nil _ _)]
                rfl

/-- A blank character has no other case. -/
theorem asciiLower_of_isBlank (h : isBlank c = true) : asciiLower c = c := by
  unfold asciiLower
  split
  · next upper =>
    have low : 65 ≤ c.toNat := UInt32.le_iff_toNat_le.mp upper.1
    have high : c.toNat ≤ 90 := UInt32.le_iff_toNat_le.mp upper.2
    simp only [isBlank, Bool.or_eq_true, Bool.and_eq_true, decide_eq_true_eq, beq_iff_eq] at h
    omega
  · rfl

/-! Words. -/

/-- Nothing, or something that begins with a blank. -/
def Breaks (cs : List Char) : Prop := ∀ c ∈ cs.head?, isBlank c = true

theorem wordsOf_cons_blank {c : Char} (blank : isBlank c = true) (cs : List Char) :
    wordsOf (c :: cs) = wordsOf cs := by
  rw [wordsOf.eq_def]
  exact if_pos blank

theorem wordsOf_cons_break {c : Char} (solid : isBlank c = false) {cs : List Char} (breaks : Breaks cs) :
    wordsOf (c :: cs) = [c] :: wordsOf cs := by
  rw [wordsOf.eq_def]
  dsimp only
  rw [solid]
  cases cs with
  | nil => rfl
  | cons d cs => exact if_pos (breaks d rfl)

theorem wordsOf_cons_solid {c d : Char} (solid : isBlank c = false) (next : isBlank d = false)
    {cs word : List Char} {words : List (List Char)} (inner : wordsOf (d :: cs) = word :: words) :
    wordsOf (c :: d :: cs) = (c :: word) :: words := by
  rw [wordsOf.eq_def]
  dsimp only
  rw [solid, next, inner]
  rfl

theorem wordsOf_blank {front : List Char} (blank : Blank front) (rest : List Char) :
    wordsOf (front ++ rest) = wordsOf rest := by
  induction front with
  | nil => rfl
  | cons c front ih =>
    rw [List.cons_append, wordsOf_cons_blank (blank c List.mem_cons_self)]
    exact ih fun d there => blank d (List.mem_cons_of_mem _ there)

theorem wordsOf_solid {word rest : List Char} (solid : ∀ c ∈ word, isBlank c = false) (ne : word ≠ [])
    (breaks : Breaks rest) : wordsOf (word ++ rest) = word :: wordsOf rest := by
  induction word with
  | nil => exact absurd rfl ne
  | cons c word ih =>
    have first := solid c List.mem_cons_self
    cases word with
    | nil => exact wordsOf_cons_break first breaks
    | cons d word =>
      have inner := ih (fun d there => solid d (List.mem_cons_of_mem _ there)) (List.cons_ne_nil _ _)
      exact wordsOf_cons_solid first (solid d (by simp)) inner

theorem exists_wordsOf_cons {c : Char} (solid : isBlank c = false) (cs : List Char) :
    ∃ word words, wordsOf (c :: cs) = word :: words := by
  induction cs generalizing c with
  | nil => exact ⟨_, _, wordsOf_cons_break solid (by simp [Breaks])⟩
  | cons d cs ih =>
    cases next : isBlank d with
    | true => exact ⟨_, _, wordsOf_cons_break solid (by simpa [Breaks] using next)⟩
    | false =>
      obtain ⟨word, words, inner⟩ := ih next
      exact ⟨_, _, wordsOf_cons_solid solid next inner⟩

theorem wordsOf_append_break {cs rest : List Char} (breaks : Breaks rest) :
    wordsOf (cs ++ rest) = wordsOf cs ++ wordsOf rest := by
  induction cs with
  | nil => rfl
  | cons c cs ih =>
    cases solid : isBlank c with
    | true => rw [List.cons_append, wordsOf_cons_blank solid, wordsOf_cons_blank solid, ih]
    | false =>
      cases cs with
      | nil =>
        rw [List.cons_append, List.nil_append, wordsOf_cons_break solid breaks,
          wordsOf_cons_break solid (by simp [Breaks])]
        rfl
      | cons d cs =>
        rw [List.cons_append, List.cons_append] at *
        cases next : isBlank d with
        | true =>
          have between : ∀ more, Breaks (d :: more) := fun more => by simpa [Breaks] using next
          rw [wordsOf_cons_break solid (between _), wordsOf_cons_break solid (between _), ih]
          rfl
        | false =>
          obtain ⟨word, words, inner⟩ := exists_wordsOf_cons next cs
          rw [inner, List.cons_append] at ih
          rw [wordsOf_cons_solid solid next inner]
          exact wordsOf_cons_solid solid next ih

theorem wordsOf_between {front cs back : List Char} (before : Blank front) (behind : Blank back) :
    wordsOf (front ++ cs ++ back) = wordsOf cs := by
  have breaks : Breaks back := fun c first => behind c (List.mem_of_mem_head? first)
  have nothing : wordsOf back = [] := by
    have none := wordsOf_blank behind []
    rwa [List.append_nil] at none
  rw [wordsOf_append_break breaks, wordsOf_blank before, nothing, List.append_nil]

/-- A text up to its first character of some kind. -/
theorem exists_cut (kind : Char → Bool) (cs : List Char) :
    ∃ front rest, cs = front ++ rest ∧ (∀ c ∈ front, kind c = false) ∧ ∀ c ∈ rest.head?, kind c = true := by
  induction cs with
  | nil => exact ⟨[], [], rfl, by simp, by simp⟩
  | cons c cs ih =>
    cases first : kind c with
    | true => exact ⟨[], c :: cs, rfl, by simp, by simpa using first⟩
    | false =>
      obtain ⟨front, rest, rfl, others, breaks⟩ := ih
      exact ⟨c :: front, rest, rfl, by simpa [first] using others, breaks⟩

/-- What is trimmed begins with no blank. -/
theorem head_trimmed {cs : List Char} : ∀ c ∈ (trimmed cs).head?, isBlank c = false := by
  intro c first
  have start : trimmed cs <+: trimStart cs := by
    have tail := List.reverse_prefix.mpr ((trimStart cs).reverse.dropWhile_suffix isBlank)
    rwa [List.reverse_reverse] at tail
  obtain ⟨back, whole⟩ := start
  have first' : (trimStart cs).head? = some c := by
    rw [← whole, List.head?_append, first]
    rfl
  have solid := List.head?_dropWhile_not isBlank cs
  rw [show cs.dropWhile isBlank = trimStart cs from rfl, first'] at solid
  exact solid

/-- The first word of a text, with what stands around it. -/
theorem exists_of_wordsOf {cs word : List Char} {words : List (List Char)} (h : wordsOf cs = word :: words) :
    ∃ front rest, Blank front ∧ cs = front ++ (word ++ rest) ∧ word ≠ [] ∧
      (∀ c ∈ word, isBlank c = false) ∧ Breaks rest ∧ wordsOf rest = words := by
  obtain ⟨front, back, rfl, blank, starts⟩ := exists_cut (fun c => !isBlank c) cs
  obtain ⟨inner, rest, rfl, solid, breaks⟩ := exists_cut isBlank back
  have blank : Blank front := fun c there => by simpa using blank c there
  rw [wordsOf_blank blank] at h
  cases inner with
  | nil =>
    cases rest with
    | nil => cases h
    | cons c rest =>
      have both := starts c rfl
      rw [breaks c rfl] at both
      cases both
  | cons c inner =>
    rw [wordsOf_solid solid (List.cons_ne_nil _ _) breaks] at h
    cases h
    exact ⟨front, rest, blank, rfl, List.cons_ne_nil _ _, solid, breaks, rfl⟩

/-! Digits. -/

theorem isDigit_eq (c : Char) : isDigit c = c.isDigit := by
  simp [isDigit, Char.isDigit, Char.le_def]

theorem digitValue_eq {c : Char} (h : c.isDigit = true) : digitValue c = c.toNat - '0'.toNat :=
  if_pos ((isDigit_eq c).trans h)

theorem numeral_eq_ofDigitChars {digits : List Char} (h : ∀ c ∈ digits, c.isDigit = true) :
    numeral 10 digits = Nat.ofDigitChars 10 digits 0 := by
  unfold numeral
  generalize 0 = n
  induction digits generalizing n with
  | nil => rfl
  | cons c digits ih =>
    rw [List.foldl_cons, Nat.ofDigitChars_cons, ih (fun d hd => h d (by simp [hd])),
      digitValue_eq (h c (by simp)), Nat.mul_comm]

theorem isBlank_of_isHexDigit {c : Char} (digit : isHexDigit c = true) : isBlank c = false := by
  have above : 48 ≤ c.toNat ∧ c.toNat ≤ 102 := by
    simp only [isHexDigit, isDigit, Bool.or_eq_true, Bool.and_eq_true, decide_eq_true_eq,
      Char.le_def, UInt32.le_iff_toNat_le] at digit
    change ((48 ≤ c.toNat ∧ c.toNat ≤ 57) ∨ 97 ≤ c.toNat ∧ c.toNat ≤ 102) ∨
      65 ≤ c.toNat ∧ c.toNat ≤ 70 at digit
    omega
  cases blank : isBlank c with
  | false => rfl
  | true =>
    simp only [isBlank, Bool.or_eq_true, Bool.and_eq_true, decide_eq_true_eq, beq_iff_eq] at blank
    omega

theorem le_ofDigitChars (digits : List Char) (n : Nat) : n ≤ Nat.ofDigitChars 10 digits n := by
  induction digits generalizing n with
  | nil => exact Nat.le_refl n
  | cons c digits ih =>
    rw [Nat.ofDigitChars_cons]
    exact Nat.le_trans (by omega) (ih _)

theorem isDigit_of_mem_toDigits {n : Nat} {c : Char} (h : c ∈ Nat.toDigits 10 n) : c.isDigit = true :=
  Nat.isDigit_of_mem_toDigits (by decide) (by decide) h

theorem digitChar_ne_zero : ∀ {n : Nat}, n < 10 → 0 < n → n.digitChar ≠ '0' := by decide

/-- No zero stands in front of other digits. -/
theorem toDigits_zero {n : Nat} {ds : List Char} (h : Nat.toDigits 10 n = '0' :: ds) : ds = [] := by
  suffices front : ∀ n, 0 < n → ∀ ds, Nat.toDigits 10 n ≠ '0' :: ds by
    cases n with
    | zero => simpa using h.symm
    | succ n => exact absurd h (front _ (Nat.succ_pos n) ds)
  clear h ds n
  intro n
  induction n using Nat.strongRecOn with
  | ind n ih =>
    intro positive ds same
    by_cases small : n < 10
    · rw [Nat.toDigits_of_lt_base small] at same
      exact digitChar_ne_zero small positive (List.cons.inj same).1
    · rw [Nat.toDigits_of_base_le (by decide) (by omega)] at same
      obtain ⟨empty, -⟩ | ⟨ds', shorter, -⟩ := List.append_eq_cons_iff.mp same
      · exact Nat.toDigits_ne_nil empty
      · exact ih (n / 10) (by omega) (by omega) ds' shorter

end LanguageHost.Text
