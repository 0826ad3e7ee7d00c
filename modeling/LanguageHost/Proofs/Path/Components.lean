import LanguageHost.Path
import LanguageHost.Proofs.Text.Blank

/-! The components of paths that are put together: those of the parts, one after the other. -/
namespace LanguageHost.Path

/-- What one piece of a path is for, between its separators. -/
def component? (s : String) : Option Component :=
  if s = "" ∨ s = "." then none else if s = ".." then some .parent else some (.name s)

/-- The components of a text as they stand behind those of another. -/
def parts (s : String) : List Component := (Text.split '/' s).filterMap component?

/-- The component that only the front of a path has. -/
def lead (p : Path) : List Component :=
  if p.isAbsolute then [.root]
  else if (Text.split '/' p.text).head? = some "." then [.here] else []

theorem components_eq (p : Path) : p.components = p.lead ++ parts p.text := by
  unfold components lead parts
  by_cases h : p.isAbsolute
  · simp only [h, if_true]
    rfl
  · simp only [h, Bool.false_eq_true, if_false]
    split
    · next ps hps =>
        rw [hps]
        rfl
    · next hps =>
        split
        · next hd =>
            cases hs : Text.split '/' p.text with
            | nil => simp [hs] at hd
            | cons s ps =>
                obtain rfl : s = "." := by simpa [hs] using hd
                exact absurd hs (hps ps)
        · rfl

theorem components_absolute {p : Path} (h : p.isAbsolute) :
    p.components = .root :: parts p.text := by
  rw [components_eq, lead, if_pos h]
  rfl

theorem isAbsolute_iff {p : Path} : p.isAbsolute = true ↔ ∃ cs, p.text.toList = '/' :: cs := by
  unfold isAbsolute
  cases h : p.text.toList with
  | nil => simp
  | cons c cs => simp

theorem relative_of_plain {s : String} (h : '/' ∉ s.toList) : (Path.mk s).isAbsolute = false := by
  cases abs : (Path.mk s).isAbsolute with
  | false => rfl
  | true =>
      obtain ⟨cs, text⟩ := isAbsolute_iff.mp abs
      change s.toList = '/' :: cs at text
      exact absurd (text ▸ List.mem_cons_self) h

theorem split_append (a b : String) :
    Text.split '/' (a ++ "/" ++ b) = Text.split '/' a ++ Text.split '/' b := by
  have cut : (a ++ "/" ++ b).toList = a.toList ++ '/' :: b.toList := by
    simp [String.toList_append]
  rw [Text.split, cut, Text.fields_append, List.map_append]
  rfl

theorem parts_append (a b : String) : parts (a ++ "/" ++ b) = parts a ++ parts b := by
  rw [parts, split_append, List.filterMap_append]
  rfl

theorem parts_single {s : String} (h : '/' ∉ s.toList) : parts s = (component? s).toList := by
  rw [parts, Text.split, Text.fields_of_not_mem h, List.map_singleton, String.ofList_toList]
  cases hs : component? s <;> simp [hs]

@[simp] theorem parts_empty : parts "" = [] := parts_single (by simp)

theorem exists_eq_slash {s : String} (h : Text.endsWith "/" s) : ∃ a, s = a ++ "/" := by
  unfold Text.endsWith at h
  cases hr : s.toList.reverse with
  | nil => simp [hr, Text.afterStart?] at h
  | cons c cs =>
      have hc : '/' = c := by
        by_cases same : '/' = c
        · exact same
        · simp [hr, Text.afterStart?, same] at h
      refine ⟨String.ofList cs.reverse, String.toList_inj.mp ?_⟩
      rw [String.toList_append, String.toList_ofList, ← List.reverse_reverse s.toList, hr, ← hc]
      simp

theorem parts_slash {s : String} (h : Text.endsWith "/" s) (b : String) :
    parts (s ++ b) = parts s ++ parts b := by
  obtain ⟨a, rfl⟩ := exists_eq_slash h
  have front := parts_append a ""
  rw [String.append_empty, parts_empty, List.append_nil] at front
  rw [parts_append, front]

section join
variable {p : Path} {q : String}

theorem join_absolute (h : (Path.mk q).isAbsolute) : p / q = ⟨q⟩ := if_pos h

/-- A relative path joined to another adds its own components to those of the other. -/
theorem parts_join (h : (Path.mk q).isAbsolute = false) :
    parts (p / q).text = parts p.text ++ parts q := by
  change parts (join p q).text = _
  simp only [join, h, Bool.false_eq_true, if_false]
  split
  · next empty => simp [empty]
  · split
    · next slash => exact parts_slash slash q
    · exact parts_append p.text q

theorem isAbsolute_join (h : (Path.mk q).isAbsolute = false) :
    (p / q).isAbsolute = p.isAbsolute := by
  change (join p q).isAbsolute = _
  simp only [join, h, Bool.false_eq_true, if_false]
  split
  · next empty => rw [h, isAbsolute, empty]; rfl
  · next ne =>
      have front : ∀ b, (Path.mk (p.text ++ b)).isAbsolute = p.isAbsolute := by
        intro b
        cases ht : p.text.toList with
        | nil => exact absurd (String.toList_inj.mp ht) ne
        | cons c cs => simp [isAbsolute, ht]
      split
      · exact front q
      · exact String.append_assoc ▸ front ("/" ++ q)

/-- Seen from an absolute path every path is absolute. -/
theorem isAbsolute_from (abs : p.isAbsolute = true) (r : Path) : (p / r.text).isAbsolute = true := by
  cases hr : r.isAbsolute with
  | true =>
      have root : p / r.text = r := join_absolute hr
      rw [root, hr]
  | false => rw [isAbsolute_join (q := r.text) hr, abs]

theorem components_join (abs : p.isAbsolute) (h : (Path.mk q).isAbsolute = false) :
    (p / q).components = p.components ++ parts q := by
  rw [components_absolute ((isAbsolute_join h).trans abs), components_absolute abs, parts_join h]
  rfl

/-- A path is seen from a directory by what it adds to it, unless it starts at the root. -/
theorem components_from {cwd : Path} (abs : cwd.isAbsolute) (h : (Path.mk q).isAbsolute = false) :
    (cwd / (p / q).text).components = (cwd / p.text).components ++ parts q := by
  have whole := isAbsolute_join (p := p) h
  cases hp : p.isAbsolute with
  | true =>
      have hq : cwd / (p / q).text = p / q := join_absolute (whole.trans hp)
      have hp' : cwd / p.text = p := join_absolute hp
      rw [hq, hp', components_join hp h]
  | false =>
      have hq := components_join (q := (p / q).text) abs (whole.trans hp)
      have hp' := components_join (q := p.text) abs hp
      rw [hq, hp', parts_join h, List.append_assoc]

end join

/-! Paths written from their components. -/

/-- A component that stands for itself wherever it is written. -/
def Component.Ordinary (c : Component) : Prop := component? c.text = some c ∧ '/' ∉ c.text.toList

theorem component?_eq_some {s : String} {c : Component} (h : component? s = some c) : c.text = s := by
  unfold component? at h
  split at h
  · cases h
  · split at h
    · next up =>
        cases h
        exact up.symm
    · cases h
      rfl

theorem plain_of_mem_split {s text : String} (h : s ∈ Text.split '/' text) : '/' ∉ s.toList := by
  obtain ⟨f, hf, rfl⟩ := List.mem_map.mp h
  rw [String.toList_ofList]
  exact Text.not_mem_of_mem_fields hf

theorem ordinary_of_mem_parts {s : String} {c : Component} (h : c ∈ parts s) : c.Ordinary := by
  obtain ⟨piece, hpiece, hc⟩ := List.mem_filterMap.mp h
  have text := component?_eq_some hc
  constructor
  · rw [text, hc]
  · rw [text]
    exact plain_of_mem_split hpiece

/-- A text without separators stands for nothing, for the directory above, or for itself. -/
theorem parts_piece {s : String} (h : '/' ∉ s.toList) :
    parts s = [] ∨ parts s = [.parent] ∨ (parts s = [.name s] ∧ (Component.name s).Ordinary) := by
  rw [parts_single h]
  cases hs : component? s with
  | none => exact .inl rfl
  | some c =>
      have text := component?_eq_some hs
      cases c with
      | root => exact absurd (text ▸ h) (by decide)
      | here =>
          rw [← text] at hs
          cases hs
      | parent => exact .inr (.inl rfl)
      | name r =>
          obtain rfl : r = s := text
          exact .inr (.inr ⟨rfl, hs, h⟩)

theorem parts_text {c : Component} (h : c.Ordinary) : parts c.text = [c] := by
  rw [parts_single h.2, h.1]
  rfl

section child
variable {p : Path} {n : String} (named : (Component.name n).Ordinary)
include named

theorem relative_name : (Path.mk n).isAbsolute = false := @relative_of_plain n named.2

theorem parts_child : parts (p / n).text = parts p.text ++ [.name n] := by
  have piece : parts n = [.name n] := parts_text (c := .name n) named
  rw [parts_join (relative_name named), piece]

theorem child_ne_empty : (p / n).text ≠ "" := by
  intro empty
  have inside := parts_child (p := p) named
  rw [empty, parts_empty] at inside
  simp at inside

end child

section ofComponents
variable {cs : List Component}

theorem parts_intercalate (ss : List String) : parts (String.intercalate "/" ss) = ss.flatMap parts := by
  induction ss with
  | nil => exact parts_empty
  | cons s ss ih =>
      cases ss with
      | nil => simp [String.intercalate_singleton]
      | cons r ss =>
          rw [String.intercalate_cons_of_ne_nil (by simp), parts_append, ih]
          rfl

/-- What a list of components is read as. -/
def reading (cs : List Component) : List Component := cs.flatMap fun c => parts c.text

theorem reading_ordinary (h : ∀ c ∈ cs, c.Ordinary) : reading cs = cs := by
  induction cs with
  | nil => rfl
  | cons c cs ih =>
      rw [reading, List.flatMap_cons, parts_text (h c (by simp))]
      exact congrArg (c :: ·) (ih fun d hd => h d (by simp [hd]))

theorem reading_append (cs ds : List Component) : reading (cs ++ ds) = reading cs ++ reading ds :=
  List.flatMap_append

/-- What a path may begin with. -/
def IsLead (l : List Component) : Prop := l = [] ∨ l = [.root] ∨ l = [.here]

theorem isLead_lead (p : Path) : IsLead p.lead := by
  unfold lead IsLead
  split
  · simp
  · split <;> simp

theorem ofComponents_relative (h : ∀ c, cs.head? = some c → c.Ordinary) :
    ofComponents cs = ⟨String.intercalate "/" (cs.map Component.text)⟩ := by
  cases cs with
  | nil => rfl
  | cons c cs =>
      cases c with
      | root => exact absurd (h .root rfl).1 (by decide)
      | here => rfl
      | parent => rfl
      | name s => rfl

theorem parts_ofComponents {l : List Component} (hl : IsLead l)
    (h : ∀ c, cs.head? = some c → c.Ordinary) :
    parts (ofComponents (l ++ cs)).text = reading cs := by
  have texts : parts (String.intercalate "/" (cs.map Component.text)) = reading cs := by
    rw [parts_intercalate, List.flatMap_map]
    rfl
  rcases hl with rfl | rfl | rfl
  · rw [List.nil_append, ofComponents_relative h]
    exact texts
  · have front := parts_append "" (String.intercalate "/" (cs.map Component.text))
    rw [parts_empty, String.empty_append, texts] at front
    exact front
  · have dot : parts "." = [] := parts_single (by decide)
    change parts (String.intercalate "/" ("." :: cs.map Component.text)) = reading cs
    rw [parts_intercalate, List.flatMap_cons, dot, ← parts_intercalate]
    exact texts

theorem isAbsolute_intercalate {s : String} (ne : s ≠ "") (h : '/' ∉ s.toList) (ts : List String) :
    (Path.mk (String.intercalate "/" (s :: ts))).isAbsolute = false := by
  obtain ⟨rest, hrest⟩ : ∃ rest, String.intercalate "/" (s :: ts) = s ++ rest := by
    cases ts with
    | nil => exact ⟨"", by rw [String.intercalate_singleton, String.append_empty]⟩
    | cons t ts =>
        exact ⟨_, by rw [String.intercalate_cons_of_ne_nil (by simp), String.append_assoc]⟩
  cases hs : s.toList with
  | nil => exact absurd (String.toList_inj.mp hs) ne
  | cons c cs =>
      have : c ≠ '/' := fun same => h (by simp [hs, same])
      simp [isAbsolute, hrest, hs, this]

theorem Component.Ordinary.text_ne {c : Component} (h : c.Ordinary) : c.text ≠ "" := by
  intro empty
  have := h.1
  rw [empty] at this
  cases this

theorem isAbsolute_ofComponents {l : List Component} (hl : IsLead l)
    (h : ∀ c, cs.head? = some c → c.Ordinary) :
    (ofComponents (l ++ cs)).isAbsolute = decide (l = [.root]) := by
  rcases hl with rfl | rfl | rfl
  · rw [List.nil_append, ofComponents_relative h]
    cases cs with
    | nil => rfl
    | cons c cs =>
        have first := h c rfl
        exact isAbsolute_intercalate first.text_ne first.2 _
  · simp [isAbsolute, ofComponents]
  · exact isAbsolute_intercalate (by decide) (by decide) _

theorem head_ordinary (h : ∀ c ∈ cs, c.Ordinary) : ∀ c, cs.head? = some c → c.Ordinary :=
  fun c hc => h c (List.mem_of_head? hc)

/-- Reading a written absolute path gives its components back. -/
theorem components_ofComponents (h : ∀ c ∈ cs, c.Ordinary) :
    (ofComponents (.root :: cs)).components = .root :: cs := by
  have lead : IsLead [.root] := .inr (.inl rfl)
  have abs := isAbsolute_ofComponents lead (head_ordinary h)
  have tail := parts_ofComponents lead (head_ordinary h)
  rw [List.singleton_append] at abs tail
  rw [components_absolute abs, tail, reading_ordinary h]

/-- A path that begins as `p` does is absolute if `p` is. -/
theorem isAbsolute_beginning (p : Path) (h : ∀ c, cs.head? = some c → c.Ordinary) :
    (ofComponents (p.lead ++ cs)).isAbsolute = p.isAbsolute := by
  rw [isAbsolute_ofComponents (isLead_lead p) h, lead]
  cases hp : p.isAbsolute with
  | true => simp
  | false =>
      simp only [Bool.false_eq_true, if_false]
      split <;> simp

/-- Where the components of a path begin that is seen from a directory. -/
def origin (cwd p : Path) : List Component := if p.isAbsolute then [.root] else cwd.components

/-- What a path that begins as `p` does is seen as from a directory. -/
theorem components_from_ofComponents {cwd : Path} (abs : cwd.isAbsolute) (p : Path)
    (h : ∀ c, cs.head? = some c → c.Ordinary) :
    (cwd / (ofComponents (p.lead ++ cs)).text).components = origin cwd p ++ reading cs := by
  have start := isAbsolute_beginning p h
  have tail := parts_ofComponents (isLead_lead p) h
  unfold origin
  cases hp : p.isAbsolute with
  | true =>
      have same : cwd / (ofComponents (p.lead ++ cs)).text = ofComponents (p.lead ++ cs) :=
        join_absolute (start.trans hp)
      rw [same, components_absolute (start.trans hp), tail]
      rfl
  | false =>
      have below := components_join (q := (ofComponents (p.lead ++ cs)).text) abs (start.trans hp)
      rw [below, tail]
      rfl

theorem components_from_self {cwd : Path} (abs : cwd.isAbsolute) (p : Path) :
    (cwd / p.text).components = origin cwd p ++ parts p.text := by
  unfold origin
  cases hp : p.isAbsolute with
  | true =>
      have same : cwd / p.text = p := join_absolute hp
      rw [same, components_absolute hp]
      rfl
  | false =>
      have below := components_join (q := p.text) abs hp
      rw [below]
      rfl

end ofComponents

/-! Names cut at their last dot. -/

theorem cutExtension_cases (name : String) :
    (cutExtension name = (name, none)) ∨ ∃ front ending, name.toList = front ++ '.' :: ending ∧
      '.' ∉ ending ∧ cutExtension name = (String.ofList front, some (String.ofList ending)) := by
  cases h : Text.cut? '.' name.toList.reverse with
  | none =>
      left
      simp only [cutExtension, h]
  | some pair =>
      obtain ⟨ending, rest⟩ := pair
      by_cases bare : rest.isEmpty
      · left
        simp only [cutExtension, h, bare, if_true]
      · refine .inr ⟨rest.reverse, ending.reverse, ?_, ?_, ?_⟩
        · rw [← List.reverse_reverse name.toList, Text.cut?_eq h]
          simp
        · simpa using Text.not_mem_of_cut? h
        · simp only [cutExtension, h, bare, Bool.false_eq_true, if_false]

/-- A name with its ending replaced by one with a dot in it is another name. -/
theorem replaced_ending_ne {name ending : String} (h : '.' ∈ ending.toList) :
    (cutExtension name).1 ++ "." ++ ending ≠ name := by
  intro same
  have text := congrArg String.toList same
  rcases cutExtension_cases name with whole | ⟨front, back, hname, plain, cut⟩
  · rw [whole] at text
    have := congrArg List.length text
    simp at this
  · rw [cut, hname] at text
    simp only [String.toList_append, String.toList_ofList, List.append_assoc] at text
    obtain ⟨_, tail⟩ := List.cons.inj (List.append_cancel_left text)
    exact plain (tail ▸ h)

theorem stem_subset {name : String} {c : Char} (h : c ∈ (cutExtension name).1.toList) :
    c ∈ name.toList := by
  rcases cutExtension_cases name with whole | ⟨front, back, hname, _, cut⟩
  · rwa [whole] at h
  · rw [cut, String.toList_ofList] at h
    rw [hname]
    exact List.mem_append_left _ h

theorem component?_of_long {s : String} (h : 2 < s.length) : component? s = some (.name s) := by
  have other : ∀ r : String, r.length ≤ 2 → s ≠ r := by
    rintro r hr rfl
    omega
  unfold component?
  rw [if_neg, if_neg (other ".." (by decide))]
  rintro (same | same)
  · exact other "" (by decide) same
  · exact other "." (by decide) same

/-- Another ending makes a name of a name. -/
theorem ordinary_with_ending {name ending : String} (h : '/' ∉ name.toList)
    (plain : '/' ∉ ending.toList) (long : 2 < ending.length) :
    (Component.name ((cutExtension name).1 ++ "." ++ ending)).Ordinary := by
  constructor
  · refine component?_of_long ?_
    change 2 < ((cutExtension name).1 ++ "." ++ ending).length
    rw [String.length_append, String.length_append]
    omega
  · change '/' ∉ ((cutExtension name).1 ++ "." ++ ending).toList
    simp only [String.toList_append, List.mem_append, not_or]
    exact ⟨⟨fun inside => h (stem_subset inside), by decide⟩, plain⟩

section fileName
variable {p : Path} {name : String}

theorem exists_parts_of_fileName? (h : p.fileName? = some name) :
    ∃ init, parts p.text = init ++ [.name name] := by
  have last : p.components.getLast? = some (.name name) := by
    unfold fileName? at h
    split at h
    · next s hs => rw [hs, Option.some.inj h]
    · cases h
  rw [components_eq] at last
  rcases List.eq_nil_or_concat (parts p.text) with empty | ⟨init, c, hc⟩
  · rw [empty, List.append_nil] at last
    rcases isLead_lead p with hl | hl | hl <;> simp [hl] at last
  · rw [List.concat_eq_append] at hc
    rw [hc, ← List.append_assoc, List.getLast?_concat] at last
    exact ⟨init, by rw [hc, Option.some.inj last]⟩

variable {init : List Component} (h : parts p.text = init ++ [.name name])
include h

theorem parent?_eq : p.parent? = some (ofComponents (p.lead ++ init)) := by
  unfold parent?
  rw [components_eq, h, ← List.append_assoc]
  simp

theorem fileName?_eq : p.fileName? = some name := by
  unfold fileName?
  rw [components_eq, h, ← List.append_assoc, List.getLast?_concat]

theorem withExtension_eq (ending : String) : p.withExtension ending =
    ofComponents (p.lead ++ (init ++ [.name (if ending = "" then (cutExtension name).1
      else (cutExtension name).1 ++ "." ++ ending)])) := by
  unfold withExtension
  rw [fileName?_eq h, components_eq, h, ← List.append_assoc, List.dropLast_concat]
  dsimp only
  rw [List.append_assoc]

end fileName

end LanguageHost.Path
