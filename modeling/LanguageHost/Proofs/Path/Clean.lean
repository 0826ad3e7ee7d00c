import Mathlib.Data.String.Defs
import LanguageHost.Proofs.Path.Components

/-! Clean paths: what is left of the components when each `..` has taken back the name before it, and how
such a path is written. Cleaning makes no path longer. -/
namespace LanguageHost.Path

/-! Taking back. -/

/-- A component behind those that are left, the last of them first. In a path that starts at the root a
`..` with nothing to take back vanishes. -/
def takeBack (rooted : Bool) (left : List Component) : Component → List Component
  | .parent =>
    match left with
    | .name _ :: rest => rest
    | [] => if rooted then [] else [.parent]
    | _ => .parent :: left
  | c => c :: left

/-- What is left of the components behind the lead, in order. -/
def cleanParts (rooted : Bool) (cs : List Component) : List Component :=
  (cs.foldl (takeBack rooted) []).reverse

/-- What a clean path begins with. -/
def base (rooted : Bool) : List Component := if rooted then [.root] else []

variable {rooted : Bool} {left cs : List Component}

theorem Component.Ordinary.cases {c : Component} (h : c.Ordinary) : c = .parent ∨ ∃ s, c = .name s := by
  cases c with
  | root => exact absurd h.1 (by decide)
  | here => exact absurd h.1 (by decide)
  | parent => exact .inl rfl
  | name s => exact .inr ⟨s, rfl⟩

theorem cleanStep_base (ordinary : ∀ c ∈ left, c.Ordinary) {c : Component} (h : c.Ordinary) :
    cleanStep (left ++ base rooted) c = takeBack rooted left c ++ base rooted := by
  rcases h.cases with rfl | ⟨s, rfl⟩
  · cases left with
    | nil => cases rooted <;> rfl
    | cons d left =>
        rcases (ordinary d List.mem_cons_self).cases with rfl | ⟨s, rfl⟩ <;> rfl
  · rfl

theorem takeBack_sublist (c : Component) :
    (takeBack rooted left c).reverse.Sublist (left.reverse ++ [c]) := by
  have whole : (c :: left).reverse = left.reverse ++ [c] := List.reverse_cons
  unfold takeBack
  split
  · split
    · next rest =>
        rw [List.reverse_cons]
        exact ((List.sublist_append_left _ _).trans (List.sublist_append_left _ _))
    · split
      · exact List.nil_sublist _
      · exact .refl _
    · exact whole ▸ .refl _
  · exact whole ▸ .refl _

theorem foldl_takeBack_sublist (left cs : List Component) :
    (cs.foldl (takeBack rooted) left).reverse.Sublist (left.reverse ++ cs) := by
  induction cs generalizing left with
  | nil => simp
  | cons c cs ih =>
      have step := (@takeBack_sublist rooted left c).append_right cs
      rw [List.append_assoc, List.singleton_append] at step
      exact (ih _).trans step

theorem cleanParts_sublist (rooted : Bool) (cs : List Component) : (cleanParts rooted cs).Sublist cs :=
  foldl_takeBack_sublist [] cs

theorem ordinary_cleanParts (h : ∀ c ∈ cs, c.Ordinary) : ∀ c ∈ cleanParts rooted cs, c.Ordinary :=
  fun c there => h c ((cleanParts_sublist rooted cs).subset there)

theorem foldl_cleanStep (ordinary : ∀ c ∈ left, c.Ordinary) (h : ∀ c ∈ cs, c.Ordinary) :
    cs.foldl cleanStep (left ++ base rooted) = cs.foldl (takeBack rooted) left ++ base rooted := by
  induction cs generalizing left with
  | nil => rfl
  | cons c cs ih =>
      rw [List.foldl_cons, cleanStep_base ordinary (h c List.mem_cons_self)]
      refine ih (fun d there => ?_) fun d there => h d (List.mem_cons_of_mem _ there)
      have kept := (@takeBack_sublist rooted left c).subset (List.mem_reverse.mpr there)
      rcases List.mem_append.mp kept with before | here
      · exact ordinary d (List.mem_reverse.mp before)
      · exact List.mem_singleton.mp here ▸ h c List.mem_cons_self

theorem foldl_lead (p : Path) : p.lead.foldl cleanStep [] = base p.isAbsolute := by
  unfold lead
  cases p.isAbsolute with
  | true => rfl
  | false =>
      simp only [Bool.false_eq_true, if_false]
      split <;> rfl

/-- A path without `..` has nothing to take back. -/
theorem foldl_takeBack_names (names : .parent ∉ cs) (left : List Component) :
    cs.foldl (takeBack rooted) left = cs.reverse ++ left := by
  induction cs generalizing left with
  | nil => rfl
  | cons c cs ih =>
      rw [List.mem_cons, not_or] at names
      have pushed : takeBack rooted left c = c :: left := by
        cases c with
        | parent => exact absurd rfl names.1
        | _ => rfl
      rw [List.foldl_cons, pushed, ih names.2, List.reverse_cons, List.append_assoc]
      rfl

/-- A clean path is written from what is left, or is the directory that it is seen from. -/
theorem clean_eq (p : Path) : p.clean =
    if base p.isAbsolute ++ cleanParts p.isAbsolute (parts p.text) = [] then ⟨"."⟩
    else ofComponents (base p.isAbsolute ++ cleanParts p.isAbsolute (parts p.text)) := by
  have whole : (p.components.foldl cleanStep []).reverse =
      base p.isAbsolute ++ cleanParts p.isAbsolute (parts p.text) := by
    rw [components_eq, List.foldl_append, foldl_lead]
    have folded := @foldl_cleanStep p.isAbsolute [] (parts p.text) (fun _ => nofun) fun _ =>
      ordinary_of_mem_parts
    rw [List.nil_append] at folded
    rw [folded, List.reverse_append, cleanParts]
    cases p.isAbsolute <;> rfl
  unfold clean
  simp only [whole, List.isEmpty_iff]

theorem isLead_base (rooted : Bool) : IsLead (base rooted) := by
  cases rooted
  · exact .inl rfl
  · exact .inr (.inl rfl)

/-- A clean path is seen from a directory by what is left of the path. -/
theorem components_from_clean {cwd : Path} (abs : cwd.isAbsolute) (p : Path) :
    (cwd / p.clean.text).components = origin cwd p ++ cleanParts p.isAbsolute (parts p.text) := by
  have ordinary : ∀ c ∈ cleanParts p.isAbsolute (parts p.text), c.Ordinary :=
    ordinary_cleanParts fun _ => ordinary_of_mem_parts
  rw [clean_eq]
  split
  · next nothing =>
      obtain ⟨relative, empty⟩ := List.append_eq_nil_iff.mp nothing
      have relative : p.isAbsolute = false := by
        cases rooted : p.isAbsolute with
        | false => rfl
        | true =>
            rw [rooted] at relative
            cases relative
      have dot : parts "." = [] := parts_single (by decide)
      rw [empty, List.append_nil, origin, relative, components_join abs (relative_of_plain (by decide)),
        dot, List.append_nil]
      rfl
  · have lead := isLead_base p.isAbsolute
    have start := isAbsolute_ofComponents lead (head_ordinary ordinary)
    have tail := (parts_ofComponents lead (head_ordinary ordinary)).trans (reading_ordinary ordinary)
    rw [components_from_self abs, tail, origin, origin, start]
    congr 1
    cases p.isAbsolute <;> rfl

theorem isAbsolute_clean (p : Path) : p.clean.isAbsolute = p.isAbsolute := by
  have ordinary : ∀ c ∈ cleanParts p.isAbsolute (parts p.text), c.Ordinary :=
    ordinary_cleanParts fun _ => ordinary_of_mem_parts
  rw [clean_eq]
  split
  · next nothing =>
      cases rooted : p.isAbsolute with
      | false => exact relative_of_plain (by decide)
      | true =>
          rw [rooted] at nothing
          cases nothing
  · rw [isAbsolute_ofComponents (isLead_base _) (head_ordinary ordinary)]
    cases p.isAbsolute <;> rfl

/-! The text. -/

theorem intercalate_sublist {sep : List α} {as bs : List (List α)} (h : as.Sublist bs) :
    (sep.intercalate as).Sublist (sep.intercalate bs) := by
  induction h with
  | slnil => exact .refl _
  | @cons as bs b h ih =>
      cases bs with
      | nil =>
          rw [List.sublist_nil.mp h]
          exact List.nil_sublist _
      | cons c bs =>
          rw [List.intercalate_cons_of_ne_nil (List.cons_ne_nil _ _)]
          exact ih.trans (List.sublist_append_right _ _)
  | @cons_cons as bs b h ih =>
      cases as with
      | nil =>
          cases bs with
          | nil => exact .refl _
          | cons c bs =>
              rw [List.intercalate_singleton, List.intercalate_cons_of_ne_nil (List.cons_ne_nil _ _),
                List.append_assoc]
              exact List.sublist_append_left _ _
      | cons a as =>
          have more : bs ≠ [] := by
            rintro rfl
            cases h
          rw [List.intercalate_cons_of_ne_nil (List.cons_ne_nil _ _), List.intercalate_cons_of_ne_nil more]
          exact ih.append_left _

/-- The components stand in the text in their order. -/
theorem texts_parts_sublist (s : String) :
    ((parts s).map fun c => c.text.toList).Sublist (Text.fields '/' s.toList) := by
  unfold parts Text.split
  rw [List.filterMap_map]
  induction Text.fields '/' s.toList with
  | nil => exact .slnil
  | cons f fs ih =>
      cases found : (component? ∘ String.ofList) f with
      | none =>
          rw [List.filterMap_cons_none found]
          exact ih.cons f
      | some c =>
          rw [List.filterMap_cons_some found, List.map_cons, component?_eq_some found, String.toList_ofList]
          exact ih.cons_cons f

theorem written_sublist (h : cs.Sublist (parts s)) :
    (String.intercalate "/" (cs.map Component.text)).toList.Sublist s.toList := by
  have inside := (h.map fun c => c.text.toList).trans (texts_parts_sublist s)
  have texts : (cs.map Component.text).map String.toList = cs.map fun c => c.text.toList := by
    rw [List.map_map]
    rfl
  have whole : (['/'].intercalate _).Sublist (['/'].intercalate _) := intercalate_sublist inside
  rw [Text.intercalate_fields '/'] at whole
  rw [String.toList_intercalate, texts]
  exact whole

/-- A path with a dot in front is the dot, or has a separator behind it. -/
theorem text_of_dot {text : String} (dot : (Text.split '/' text).head? = some ".") :
    text = "." ∨ ∃ rest, text = "." ++ "/" ++ rest := by
  have whole := Text.intercalate_fields '/' text.toList
  rw [Text.split, List.head?_map] at dot
  obtain ⟨first, head, same⟩ := Option.map_eq_some_iff.mp dot
  obtain rfl : first = ".".toList := by rw [← same, String.toList_ofList]
  cases fields : Text.fields '/' text.toList with
  | nil => exact absurd fields (Text.fields_ne_nil _ _)
  | cons f fs =>
      rw [fields] at head whole
      obtain rfl := Option.some.inj head
      cases fs with
      | nil =>
          rw [List.intercalate_singleton] at whole
          exact .inl (String.toList_inj.mp whole.symm)
      | cons g fs =>
          rw [List.intercalate_cons_of_ne_nil (List.cons_ne_nil _ _)] at whole
          refine .inr ⟨String.ofList (['/'].intercalate (g :: fs)), String.toList_inj.mp ?_⟩
          rw [← whole, String.toList_append, String.toList_append,
            @String.toList_ofList (['/'].intercalate (g :: fs))]
          rfl

/-- Components from behind the front of a path are written in the order in which they stand there. -/
theorem rewritten_sublist {p : Path} (h : cs.Sublist (parts p.text)) :
    (ofComponents (p.lead ++ cs)).text.toList.Sublist p.text.toList := by
  have ordinary : ∀ c ∈ cs, c.Ordinary := fun c there => ordinary_of_mem_parts (h.subset there)
  unfold lead
  cases rooted : p.isAbsolute with
  | true =>
      obtain ⟨rest, text⟩ := isAbsolute_iff.mp rooted
      have tail : parts p.text = parts (String.ofList rest) := by
        have front := parts_append "" (String.ofList rest)
        rw [parts_empty, List.nil_append] at front
        rw [← front]
        congr 1
        rw [← String.toList_inj, text]
        simp
      have below := written_sublist (tail ▸ h)
      rw [String.toList_ofList] at below
      change ("/" ++ String.intercalate "/" _).toList.Sublist _
      rw [String.toList_append, text]
      exact below.cons_cons '/'
  | false =>
      rw [if_neg (by decide)]
      split
      · next dot =>
          change (String.intercalate "/" ("." :: cs.map Component.text)).toList.Sublist _
          rcases text_of_dot dot with text | ⟨rest, text⟩
          · have nothing : parts p.text = [] := text ▸ parts_single (by decide)
            obtain rfl := List.sublist_nil.mp (nothing ▸ h)
            have same : String.intercalate "/" ["."] = p.text := by rw [text, String.intercalate_singleton]
            exact congrArg String.toList same ▸ .refl _
          · have tail : parts p.text = parts rest := by
              have here : parts "." = [] := parts_single (by decide)
              rw [text, parts_append, here, List.nil_append]
            have below := written_sublist (tail ▸ h)
            cases cs with
            | nil =>
                rw [text, List.map_nil, String.intercalate_singleton, String.toList_append,
                  String.toList_append, List.append_assoc]
                exact List.sublist_append_left _ _
            | cons c cs =>
                rw [List.map_cons, String.intercalate_cons_of_ne_nil (List.cons_ne_nil _ _), text,
                  String.toList_append, String.toList_append, String.toList_append, String.toList_append]
                exact below.append_left _
      · rw [List.nil_append, ofComponents_relative (head_ordinary ordinary)]
        exact written_sublist h

/-- A clean path is a dot, or all its characters stand in the path. -/
theorem clean_sublist (p : Path) : p.clean = ⟨"."⟩ ∨ p.clean.text.toList.Sublist p.text.toList := by
  have inside := cleanParts_sublist p.isAbsolute (parts p.text)
  rw [clean_eq]
  split
  · exact .inl rfl
  · refine .inr ?_
    cases rooted : p.isAbsolute with
    | false =>
        rw [rooted] at inside
        have ordinary : ∀ c ∈ cleanParts false (parts p.text), c.Ordinary :=
          ordinary_cleanParts fun _ => ordinary_of_mem_parts
        rw [base, if_neg (by decide), List.nil_append, ofComponents_relative (head_ordinary ordinary)]
        exact written_sublist inside
    | true =>
        rw [rooted] at inside
        have written := rewritten_sublist inside
        rwa [lead, if_pos rooted] at written

theorem clean_ne_empty (p : Path) : p.clean.text ≠ "" := by
  have ordinary : ∀ c ∈ cleanParts p.isAbsolute (parts p.text), c.Ordinary :=
    ordinary_cleanParts fun _ => ordinary_of_mem_parts
  intro empty
  have start := isAbsolute_clean p
  rw [isAbsolute, empty] at start
  rw [clean_eq] at empty
  split at empty
  · exact absurd empty (by decide)
  · next something =>
      have read := parts_ofComponents (isLead_base p.isAbsolute) (head_ordinary ordinary)
      rw [empty, parts_empty, reading_ordinary ordinary] at read
      refine something ?_
      rw [← read, List.append_nil, ← start]
      rfl

/-! A path written anew from its components, and names below a path. -/

theorem ordinary_parts (p : Path) : ∀ c ∈ parts p.text, c.Ordinary := fun _ there => ordinary_of_mem_parts there

theorem isAbsolute_rewritten (p : Path) : (ofComponents p.components).isAbsolute = p.isAbsolute := by
  rw [components_eq]
  exact isAbsolute_beginning p (head_ordinary (ordinary_parts p))

theorem components_from_rewritten {cwd : Path} (abs : cwd.isAbsolute) (p : Path) :
    (cwd / (ofComponents p.components).text).components = (cwd / p.text).components := by
  rw [components_eq p, components_from_ofComponents abs p (head_ordinary (ordinary_parts p)),
    reading_ordinary (ordinary_parts p), components_from_self abs]

theorem rewritten_ne_empty {p : Path} (some : parts p.text ≠ []) : (ofComponents p.components).text ≠ "" := by
  intro empty
  have read := parts_ofComponents (isLead_lead p) (head_ordinary (ordinary_parts p))
  rw [← components_eq, empty, parts_empty, reading_ordinary (ordinary_parts p)] at read
  exact some read.symm

section child
variable {p : Path} {n : String} (named : (Component.name n).Ordinary)
include named

theorem lead_child : (p / n).lead = p.lead := by
  have head : ∀ a b : String, (Text.split '/' (a ++ "/" ++ b)).head? = (Text.split '/' a).head? := by
    intro a b
    rw [split_append]
    cases first : Text.split '/' a with
    | nil => exact absurd (List.map_eq_nil_iff.mp first) (Text.fields_ne_nil _ _)
    | cons s ss => rfl
  have single : (Text.split '/' n).head? ≠ some "." := by
    have whole : '/' ∉ n.toList := named.2
    rw [Text.split, Text.fields_of_not_mem whole, List.map_singleton, String.ofList_toList]
    rintro ⟨⟩
    exact absurd named.1 (by decide)
  have absolute : (p / n).isAbsolute = p.isAbsolute := isAbsolute_join (relative_name named)
  have front : (Text.split '/' (p / n).text).head? = some "." ↔ (Text.split '/' p.text).head? = some "." := by
    change (Text.split '/' (join p n).text).head? = _ ↔ _
    rw [join, if_neg (by simp [relative_name named])]
    split
    · next empty =>
        rw [empty]
        exact iff_of_false single (by decide)
    · split
      · next slash =>
          obtain ⟨a, text⟩ := exists_eq_slash slash
          have whole := head a ""
          rw [String.append_empty] at whole
          rw [text, head, whole]
      · rw [head]
  unfold lead
  rw [absolute]
  simp only [front]

theorem components_child : (p / n).components = p.components ++ [.name n] := by
  rw [components_eq, components_eq, lead_child named, parts_child named, List.append_assoc]

end child

end LanguageHost.Path
