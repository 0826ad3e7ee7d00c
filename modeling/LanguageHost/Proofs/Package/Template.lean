import Mathlib.Data.List.Forall2
import Mathlib.Logic.ExistsUnique
import LanguageHost.Package.Platform
import LanguageHost.Proofs.Package.Spelling

/-! Templates by their grammar: literals without an opening brace, each with a placeholder behind it, and at
the end a literal, which a brace that nothing closes may follow. Every text is cut in one way only, and
expansion is the literals with the values of the placeholders between them. -/
namespace LanguageHost

/-- A literal, and the name of the placeholder behind it. -/
@[ext] structure Template.Piece where
  literal : List Char
  name : List Char

/-- A template in its parts. -/
structure Template where
  pieces : List Template.Piece
  /-- the literal behind the last placeholder -/
  last : List Char
  /-- what stands behind a brace that nothing closes -/
  loose : Option (List Char)

namespace Template
open Text (behind)

def Piece.text (p : Piece) : List Char := p.literal ++ '{' :: p.name ++ ['}']

def text (t : Template) : List Char := t.pieces.flatMap Piece.text ++ t.last ++ behind '{' t.loose

def Piece.Proper (p : Piece) : Prop := '{' ∉ p.literal ∧ '}' ∉ p.name

instance (p : Piece) : Decidable p.Proper := inferInstanceAs (Decidable (_ ∧ _))

/-- Each part is free of what would end it. -/
structure Proper (t : Template) : Prop where
  pieces : ∀ p ∈ t.pieces, p.Proper
  last : '{' ∉ t.last
  loose : ∀ rest ∈ t.loose, '}' ∉ rest

theorem text_piece (p : Piece) (pieces : List Piece) (last : List Char) (loose : Option (List Char)) :
    text ⟨p :: pieces, last, loose⟩ =
      p.literal ++ '{' :: (p.name ++ '}' :: text ⟨pieces, last, loose⟩) := by
  simp [text, Piece.text]

theorem text_last (last : List Char) : text ⟨[], last, none⟩ = last := by simp [text, behind]

/-- Every text is cut. -/
theorem exists_text (cs : List Char) : ∃ t : Template, t.Proper ∧ cs = t.text := by
  induction size : cs.length using Nat.strongRecOn generalizing cs with
  | ind n ih =>
    subst size
    cases braced : Text.cut? '{' cs with
    | none =>
        exact ⟨⟨[], cs, none⟩, ⟨by simp, Text.cut?_eq_none_iff.mp braced, by simp⟩, (text_last cs).symm⟩
    | some parts =>
        obtain ⟨literal, after⟩ := parts
        have free := Text.not_mem_of_cut? braced
        cases closed : Text.cut? '}' after with
        | none =>
            refine ⟨⟨[], literal, some after⟩, ⟨by simp, free, ?_⟩, Text.cut?_eq braced⟩
            rintro rest ⟨⟩
            exact Text.cut?_eq_none_iff.mp closed
        | some parts =>
            obtain ⟨name, rest⟩ := parts
            have shorter := Nat.lt_trans (Text.cut?_shorter closed) (Text.cut?_shorter braced)
            obtain ⟨⟨pieces, last, loose⟩, proper, rfl⟩ := ih _ shorter rest rfl
            have piece : Piece.Proper ⟨literal, name⟩ := ⟨free, Text.not_mem_of_cut? closed⟩
            refine ⟨⟨⟨literal, name⟩ :: pieces, last, loose⟩,
              ⟨List.forall_mem_cons.mpr ⟨piece, proper.pieces⟩, proper.last, proper.loose⟩, ?_⟩
            rw [text_piece, ← Text.cut?_eq closed, ← Text.cut?_eq braced]

section unique
variable {p : Piece} {pieces : List Piece} {last : List Char} {loose : Option (List Char)}

theorem Proper.head (h : Proper ⟨p :: pieces, last, loose⟩) : p.Proper := h.pieces p List.mem_cons_self

theorem Proper.tail (h : Proper ⟨p :: pieces, last, loose⟩) : Proper ⟨pieces, last, loose⟩ :=
  ⟨fun q there => h.pieces q (List.mem_cons_of_mem _ there), h.last, h.loose⟩

/-- The first brace of a template without placeholders is the one that nothing closes. -/
theorem cut?_last (h : Proper ⟨[], last, loose⟩) :
    Text.cut? '{' (text ⟨[], last, loose⟩) = loose.map fun rest => (last, rest) :=
  Text.cut?_behind h.last loose

theorem cut?_piece (h : Proper ⟨p :: pieces, last, loose⟩) :
    Text.cut? '{' (text ⟨p :: pieces, last, loose⟩) =
      some (p.literal, p.name ++ '}' :: text ⟨pieces, last, loose⟩) := by
  rw [text_piece, Text.cut?_append h.head.1]

/-- No text is cut in two ways. -/
theorem Proper.eq_of_text {t u : Template} (ht : t.Proper) (hu : u.Proper) (same : t.text = u.text) :
    t = u := by
  obtain ⟨pieces, last, loose⟩ := t
  obtain ⟨pieces', last', loose'⟩ := u
  have cut := congrArg (Text.cut? '{') same
  induction pieces generalizing pieces' with
  | nil =>
      cases pieces' with
      | nil =>
          rw [cut?_last ht, cut?_last hu] at cut
          cases loose with
          | none =>
              obtain rfl : loose' = none := by simpa using cut.symm
              simpa [text, behind] using same
          | some rest =>
              cases loose' with
              | none => cases cut
              | some rest' =>
                  cases cut
                  rfl
      | cons q pieces' =>
          rw [cut?_last ht, cut?_piece hu] at cut
          obtain ⟨rest, there, eq⟩ := Option.map_eq_some_iff.mp cut
          cases eq
          exact absurd (by simp) (ht.loose _ there)
  | cons p pieces ih =>
      cases pieces' with
      | nil =>
          rw [cut?_piece ht, cut?_last hu] at cut
          obtain ⟨rest, there, eq⟩ := Option.map_eq_some_iff.mp cut.symm
          cases eq
          exact absurd (by simp) (hu.loose _ there)
      | cons q pieces' =>
          rw [cut?_piece ht, cut?_piece hu] at cut
          obtain ⟨literal, behind⟩ := Prod.mk.inj (Option.some.inj cut)
          have named := congrArg (Text.cut? '}') behind
          rw [Text.cut?_append ht.head.2, Text.cut?_append hu.head.2] at named
          obtain ⟨name, rest⟩ := Prod.mk.inj (Option.some.inj named)
          cases ih ht.tail pieces' hu.tail rest (congrArg _ rest)
          rw [Piece.ext literal name]

end unique

/-- The template with a value for each of its placeholders. -/
def filled (t : Template) (values : List String) : String :=
  String.join (List.zipWith (fun p v => String.ofList p.literal ++ v) t.pieces values) ++
    String.ofList t.last

end Template

/-! The parts that a text is cut into, and what they are expanded to. -/

namespace TemplatePart
variable {literal name after rest : List Char}

theorem ofChars_literal (free : '{' ∉ literal) : ofChars literal = [.literal literal] := by
  have cut := Text.cut?_eq_none_iff.mpr free
  unfold ofChars
  split
  · rfl
  · next h => cases cut.symm.trans h

theorem ofChars_open (free : '{' ∉ literal) (loose : '}' ∉ after) :
    ofChars (literal ++ '{' :: after) = [.literal literal, .unclosed] := by
  have cut := Text.cut?_append free after
  unfold ofChars
  split
  · next h => cases cut.symm.trans h
  · next text back h =>
      cases cut.symm.trans h
      split
      · rfl
      · next h' => cases (Text.cut?_eq_none_iff.mpr loose).symm.trans h'

theorem ofChars_braced (free : '{' ∉ literal) (closed : '}' ∉ name) :
    ofChars (literal ++ '{' :: (name ++ '}' :: rest)) =
      .literal literal :: .placeholder name :: ofChars rest := by
  have cut := Text.cut?_append free (name ++ '}' :: rest)
  have cut' := Text.cut?_append closed rest
  rw [ofChars]
  split
  · next h => cases cut.symm.trans h
  · next text back h =>
      cases cut.symm.trans h
      split
      · next h' => cases cut'.symm.trans h'
      · next h' =>
          cases cut'.symm.trans h'
          rfl

end TemplatePart

namespace Platform
variable {p : Platform} {version : String}

/-- What a placeholder stands for on a platform, where it stands for something. -/
inductive Means (p : Platform) (version : String) : List Char → String → Prop
  | os {v} : p.osName = .ok v → Means p version "os".toList v
  | arch {v} : p.archName = .ok v → Means p version "arch".toList v
  | target {v} : p.targetTriple = .ok v → Means p version "target".toList v
  | version : Means p version "version".toList version

/-- The placeholder has a value. -/
def Knows (p : Platform) (version : String) (name : List Char) : Prop := ∃ v, p.Means version name v

/-- Why a placeholder has no value. -/
inductive Lacks (p : Platform) (version : String) : List Char → TemplateError → Prop
  | unmapped {name} : String.ofList name ∈ ["os", "arch", "target"] → ¬ p.Knows version name →
      Lacks p version name (.unsupported p)
  | unknown {name} : String.ofList name ∉ ["os", "arch", "target", "version"] →
      Lacks p version name (.unknownPlaceholder (String.ofList name))

theorem osName_error {e : TemplateError} (h : p.osName = .error e) : e = .unsupported p := by
  unfold osName at h
  split at h <;> cases h
  rfl

theorem archName_error {e : TemplateError} (h : p.archName = .error e) : e = .unsupported p := by
  unfold archName at h
  split at h <;> cases h
  rfl

theorem targetTriple_error {e : TemplateError} (h : p.targetTriple = .error e) :
    e = .unsupported p := by
  unfold targetTriple at h
  split at h <;> cases h
  rfl

theorem placeholder_ok_iff {name : List Char} {v : String} :
    p.placeholder version (String.ofList name) = .ok v ↔ p.Means version name v := by
  constructor
  · intro h
    generalize named : String.ofList name = key at h
    obtain rfl : name = key.toList := by rw [← named, String.toList_ofList]
    unfold placeholder at h
    split at h
    · exact .os h
    · exact .arch h
    · exact .target h
    · cases h
      exact .version
    · cases h
  · rintro (h | h | h | _)
    · exact h
    · exact h
    · exact h
    · rfl

theorem placeholder_error_iff {name : List Char} {e : TemplateError} :
    p.placeholder version (String.ofList name) = .error e ↔ p.Lacks version name e := by
  have apart : p.Knows version name → p.placeholder version (String.ofList name) ≠ .error e := by
    rintro ⟨v, means⟩ h
    cases (placeholder_ok_iff.mpr means).symm.trans h
  constructor
  · intro h
    have lacks : ¬ p.Knows version name := fun knows => apart knows h
    unfold placeholder at h
    split at h
    · next named => exact osName_error h ▸ .unmapped (by simp [named]) lacks
    · next named => exact archName_error h ▸ .unmapped (by simp [named]) lacks
    · next named => exact targetTriple_error h ▸ .unmapped (by simp [named]) lacks
    · cases h
    · next os arch target given =>
        cases h
        exact .unknown (by simpa using ⟨os, arch, target, given⟩)
  · intro lacks
    cases lacks with
    | unmapped named unknown =>
        cases h : p.placeholder version (String.ofList name) with
        | ok v => exact absurd ⟨v, placeholder_ok_iff.mp h⟩ unknown
        | error e =>
            unfold placeholder at h
            simp only [List.mem_cons, List.not_mem_nil, or_false] at named
            rcases named with named | named | named <;> rw [named] at h
            · rw [osName_error h]
            · rw [archName_error h]
            · rw [targetTriple_error h]
    | unknown other =>
        simp only [List.mem_cons, List.not_mem_nil, or_false, not_or] at other
        unfold placeholder
        split <;> simp_all

section expand
variable {literal name after rest : List Char}

theorem expand_eq (cs : List Char) : p.expand (String.ofList cs) version =
    ((TemplatePart.ofChars cs).mapM (p.fill version)).map String.join := by
  unfold expand
  rw [String.toList_ofList]
  rfl

theorem expand_literal (free : '{' ∉ literal) :
    p.expand (String.ofList literal) version = .ok (String.ofList literal) := by
  rw [expand_eq, TemplatePart.ofChars_literal free]
  change Except.ok (String.join [String.ofList literal]) = _
  rw [String.join_cons, String.join_nil, String.append_empty]

theorem expand_open (free : '{' ∉ literal) (loose : '}' ∉ after) :
    p.expand (String.ofList (literal ++ '{' :: after)) version = .error .unterminated := by
  rw [expand_eq, TemplatePart.ofChars_open free loose]
  rfl

/-- A placeholder stands for its value, whatever is in it. -/
theorem expand_braced (free : '{' ∉ literal) (closed : '}' ∉ name) :
    p.expand (String.ofList (literal ++ '{' :: (name ++ '}' :: rest))) version =
      (p.placeholder version (String.ofList name)).bind fun v =>
        (p.expand (String.ofList rest) version).map (String.ofList literal ++ v ++ ·) := by
  rw [expand_eq, expand_eq, TemplatePart.ofChars_braced free closed, List.mapM_cons, List.mapM_cons]
  simp only [fill]
  cases p.placeholder version (String.ofList name) with
  | error e => rfl
  | ok v =>
      cases (TemplatePart.ofChars rest).mapM (p.fill version) with
      | error e => rfl
      | ok texts =>
          change Except.ok (String.join (String.ofList literal :: v :: texts)) =
            .ok (String.ofList literal ++ v ++ String.join texts)
          rw [String.join_cons, String.join_cons, String.append_assoc]

/-- A literal in front of a text stays in front of what the text is expanded to. -/
theorem expand_literal_append (free : '{' ∉ literal) (cs : List Char) :
    p.expand (String.ofList (literal ++ cs)) version =
      (p.expand (String.ofList cs) version).map (String.ofList literal ++ ·) := by
  obtain ⟨⟨pieces, last, loose⟩, proper, rfl⟩ := Template.exists_text cs
  have longer {front : List Char} (h : '{' ∉ front) : '{' ∉ literal ++ front := by simp [free, h]
  cases pieces with
  | nil =>
      cases loose with
      | none =>
          rw [Template.text_last, expand_literal proper.last, expand_literal (longer proper.last),
            String.ofList_append]
          rfl
      | some after =>
          have unclosed := proper.loose after rfl
          change p.expand (String.ofList (literal ++ (last ++ '{' :: after))) version =
            (p.expand (String.ofList (last ++ '{' :: after)) version).map _
          rw [← List.append_assoc, expand_open proper.last unclosed,
            expand_open (longer proper.last) unclosed]
          rfl
  | cons piece pieces =>
      rw [Template.text_piece, ← List.append_assoc, expand_braced proper.head.1 proper.head.2,
        expand_braced (longer proper.head.1) proper.head.2, String.ofList_append]
      cases p.placeholder version (String.ofList piece.name) with
      | error e => rfl
      | ok v =>
          cases p.expand (String.ofList (Template.text ⟨pieces, last, loose⟩)) version <;>
            simp [Except.bind, Except.map, String.append_assoc]

end expand

section template
variable {pieces : List Template.Piece} {last : List Char} {loose : Option (List Char)}

theorem expand_piece {piece : Template.Piece} (proper : Template.Proper ⟨piece :: pieces, last, loose⟩) :
    p.expand (String.ofList (Template.text ⟨piece :: pieces, last, loose⟩)) version =
      (p.placeholder version (String.ofList piece.name)).bind fun v =>
        (p.expand (String.ofList (Template.text ⟨pieces, last, loose⟩)) version).map
          (String.ofList piece.literal ++ v ++ ·) := by
  rw [Template.text_piece, expand_braced proper.head.1 proper.head.2]

theorem expand_last (proper : Template.Proper ⟨[], last, loose⟩) :
    p.expand (String.ofList (Template.text ⟨[], last, loose⟩)) version =
      if loose.isSome then .error .unterminated else .ok (String.ofList last) := by
  cases loose with
  | none =>
      rw [Template.text_last, expand_literal proper.last]
      rfl
  | some after => exact expand_open proper.last (proper.loose after rfl)

theorem map_eq_error_iff {ε α β : Type} {r : Except ε α} {f : α → β} {e : ε} :
    r.map f = .error e ↔ r = .error e := by
  cases r <;> simp [Except.map]

/-- A template is expanded if every placeholder has a value and every brace is closed. -/
theorem expand_eq_ok_iff {t : Template} (proper : t.Proper) {x : String} :
    p.expand (String.ofList t.text) version = .ok x ↔ t.loose = none ∧ ∃ values,
      List.Forall₂ (fun piece v => p.Means version piece.name v) t.pieces values ∧
        x = t.filled values := by
  obtain ⟨pieces, last, loose⟩ := t
  induction pieces generalizing x with
  | nil =>
      rw [expand_last proper]
      cases loose <;> simp [Template.filled, eq_comm]
  | cons piece pieces ih =>
      rw [expand_piece proper]
      cases value : p.placeholder version (String.ofList piece.name) with
      | error e =>
          refine ⟨by rintro ⟨⟩, ?_⟩
          rintro ⟨-, values, all, -⟩
          cases all with
          | cons means _ => cases value.symm.trans (placeholder_ok_iff.mpr means)
      | ok v =>
          constructor
          · intro h
            cases rest : p.expand (String.ofList (Template.text ⟨pieces, last, loose⟩)) version with
            | error e =>
                rw [rest] at h
                cases h
            | ok y =>
                rw [rest] at h
                cases h
                obtain ⟨closed, values, all, rfl⟩ := (ih proper.tail).mp rest
                refine ⟨closed, v :: values, .cons (placeholder_ok_iff.mp value) all, ?_⟩
                simp only [Template.filled, List.zipWith_cons_cons, String.join_cons,
                  String.append_assoc]
          · rintro ⟨closed, values, all, rfl⟩
            cases all with
            | @cons _ w _ values means all =>
                obtain rfl : w = v := Except.ok.inj ((placeholder_ok_iff.mpr means).symm.trans value)
                rw [(ih proper.tail).mpr ⟨closed, values, all, rfl⟩]
                simp only [Template.filled, List.zipWith_cons_cons, String.join_cons,
                  String.append_assoc]
                rfl

/-- The leftmost placeholder without a value decides the error; a brace that nothing closes comes last. -/
theorem expand_eq_error_iff {t : Template} (proper : t.Proper) {e : TemplateError} :
    p.expand (String.ofList t.text) version = .error e ↔
      (∃ before piece after, t.pieces = before ++ piece :: after ∧
        (∀ q ∈ before, p.Knows version q.name) ∧ p.Lacks version piece.name e) ∨
      ((∀ q ∈ t.pieces, p.Knows version q.name) ∧ t.loose.isSome ∧ e = .unterminated) := by
  obtain ⟨pieces, last, loose⟩ := t
  induction pieces with
  | nil =>
      rw [expand_last proper]
      cases loose <;> simp [eq_comm]
  | cons piece pieces ih =>
      rw [expand_piece proper]
      cases value : p.placeholder version (String.ofList piece.name) with
      | error e' =>
          have lacks := placeholder_error_iff.mp value
          have unknown : ¬ p.Knows version piece.name := by
            rintro ⟨v, means⟩
            cases value.symm.trans (placeholder_ok_iff.mpr means)
          constructor
          · rintro ⟨⟩
            exact .inl ⟨[], piece, pieces, rfl, by simp, lacks⟩
          · rintro (⟨before, q, after, split, all, first⟩ | ⟨all, -⟩)
            · cases before with
              | nil =>
                  obtain ⟨rfl, -⟩ := List.cons.inj split
                  exact value.symm.trans (placeholder_error_iff.mpr first)
              | cons r before =>
                  obtain ⟨rfl, -⟩ := List.cons.inj split
                  exact absurd (all piece List.mem_cons_self) unknown
            · exact absurd (all piece List.mem_cons_self) unknown
      | ok v =>
          have knows : p.Knows version piece.name := ⟨v, placeholder_ok_iff.mp value⟩
          change Except.map _ _ = .error e ↔ _
          rw [map_eq_error_iff, ih proper.tail]
          constructor
          · rintro (⟨before, q, after, rfl, all, first⟩ | ⟨all, open_brace⟩)
            · exact .inl ⟨piece :: before, q, after, rfl, List.forall_mem_cons.mpr ⟨knows, all⟩, first⟩
            · exact .inr ⟨List.forall_mem_cons.mpr ⟨knows, all⟩, open_brace⟩
          · rintro (⟨before, q, after, split, all, first⟩ | ⟨all, open_brace⟩)
            · cases before with
              | nil =>
                  obtain ⟨rfl, -⟩ := List.cons.inj split
                  cases value.symm.trans (placeholder_error_iff.mpr first)
              | cons r before =>
                  obtain ⟨rfl, rfl⟩ := List.cons.inj split
                  exact .inl ⟨before, q, after, rfl, (List.forall_mem_cons.mp all).2, first⟩
            · exact .inr ⟨(List.forall_mem_cons.mp all).2, open_brace⟩

/-- What is behind a text that can be expanded is expanded on its own. -/
theorem expand_append {a b x : String} (h : p.expand a version = .ok x) :
    p.expand (a ++ b) version = (p.expand b version).map (x ++ ·) := by
  obtain ⟨⟨pieces, last, loose⟩, proper, cut⟩ := Template.exists_text a.toList
  obtain rfl := (String.ofList_toList (s := a)).symm.trans (congrArg String.ofList cut)
  obtain ⟨cs, rfl⟩ : ∃ cs, b = String.ofList cs := ⟨b.toList, String.ofList_toList.symm⟩
  clear cut
  obtain rfl : loose = none := ((expand_eq_ok_iff proper).mp h).1
  rw [← String.ofList_append]
  induction pieces generalizing x with
  | nil =>
      rw [expand_last proper] at h
      cases h
      rw [Template.text_last, expand_literal_append proper.last]
  | cons piece pieces ih =>
      rw [expand_piece proper] at h
      rw [Template.text_piece, List.append_assoc, List.cons_append, List.append_assoc, List.cons_append,
        expand_braced proper.head.1 proper.head.2]
      cases value : p.placeholder version (String.ofList piece.name) with
      | error e =>
          rw [value] at h
          cases h
      | ok v =>
          cases rest : p.expand (String.ofList (Template.text ⟨pieces, last, none⟩)) version with
          | error e =>
              rw [value, rest] at h
              cases h
          | ok y =>
              rw [value, rest] at h
              cases h
              rw [ih proper.tail rest]
              cases p.expand (String.ofList cs) version <;>
                simp [Except.bind, Except.map, String.append_assoc]

end template

/-- A template is cut in one way into literals and placeholders, and it is expanded to the literals with the
values of the placeholders between them, as they are. Where that cannot be, the leftmost placeholder without a
value decides the error, and a brace that nothing closes only if there is none. So what is behind a template
that can be expanded is expanded on its own. -/
theorem expansion_follows_the_grammar (p : Platform) (version : String) :
    (∀ template : String, ∃! t : Template, t.Proper ∧ template.toList = t.text) ∧
    (∀ (template : String) (t : Template), t.Proper → template.toList = t.text →
      (∀ x, p.expand template version = .ok x ↔ t.loose = none ∧ ∃ values,
        List.Forall₂ (fun piece v => p.Means version piece.name v) t.pieces values ∧
          x = t.filled values) ∧
      (∀ e, p.expand template version = .error e ↔
        (∃ before piece after, t.pieces = before ++ piece :: after ∧
          (∀ q ∈ before, p.Knows version q.name) ∧ p.Lacks version piece.name e) ∨
        ((∀ q ∈ t.pieces, p.Knows version q.name) ∧ t.loose.isSome ∧ e = .unterminated))) ∧
    ∀ a x, p.expand a version = .ok x →
      ∀ b, p.expand (a ++ b) version = (p.expand b version).map (x ++ ·) := by
  refine ⟨fun template => ?_, fun template t proper written => ?_, fun a x ok b => expand_append ok⟩
  · obtain ⟨t, proper, written⟩ := Template.exists_text template.toList
    refine ⟨t, ⟨proper, written⟩, ?_⟩
    rintro u ⟨proper', written'⟩
    exact proper'.eq_of_text proper (written'.symm.trans written)
  · obtain rfl : template = String.ofList t.text := by rw [← written, String.ofList_toList]
    exact ⟨fun x => expand_eq_ok_iff proper, fun e => expand_eq_error_iff proper⟩

/-- The braces of a version are text, and so is a brace that closes nothing. -/
theorem version_is_not_expanded :
    let p : Platform := ⟨"linux", "x86_64"⟩
    p.expand "s-\x7bversion\x7d\x7d" "1\x7bos\x7d" = .ok "s-1\x7bos\x7d\x7d" ∧
      p.expand ("s-\x7bversion\x7d\x7d" ++ "-\x7bos\x7d\x7barch") "1\x7bos\x7d" = .error .unterminated := by
  intro p
  obtain ⟨-, cut, append⟩ := expansion_follows_the_grammar p "1\x7bos\x7d"
  have ok : p.expand "s-\x7bversion\x7d\x7d" "1\x7bos\x7d" = .ok "s-1\x7bos\x7d\x7d" := by
    have proper : Template.Proper ⟨[⟨"s-".toList, "version".toList⟩], ['}'], none⟩ :=
      ⟨by decide, by decide, by simp⟩
    exact ((cut _ _ proper rfl).1 _).mpr ⟨rfl, ["1\x7bos\x7d"], .cons .version .nil, by decide⟩
  have loose : p.expand "-\x7bos\x7d\x7barch" "1\x7bos\x7d" = .error .unterminated := by
    have proper : Template.Proper ⟨[⟨['-'], "os".toList⟩], [], some "arch".toList⟩ := by
      refine ⟨by decide, by decide, ?_⟩
      rintro rest ⟨⟩
      decide
    refine ((cut _ _ proper rfl).2 _).mpr (.inr ⟨?_, rfl, rfl⟩)
    rintro q there
    cases List.mem_singleton.mp there
    exact ⟨"linux", .os rfl⟩
  refine ⟨ok, ?_⟩
  rw [append _ _ ok, loose]
  rfl

end Platform

end LanguageHost
