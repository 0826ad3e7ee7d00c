import Mathlib.Data.String.Basic
import LanguageHost.Proofs.Files.Slot
import LanguageHost.Proofs.Path.Clean

/-! Where a clean path leads: to where the path itself does, unless a `..` in it comes after a link. -/
namespace LanguageHost.Files
open LanguageHost.Path (cleanParts takeBack origin parts)

variable {t : Files} {k k₁ k' : Nat} {done mid start place : List String} {cs ds : List Path.Component}

theorem Leads.le (h : Leads t k done cs k' place) : k' ≤ k := by
  induction h with
  | arrived => exact Nat.le_refl _
  | root _ ih => exact ih
  | here _ ih => exact ih
  | parent _ ih => exact ih
  | dir _ _ _ ih => exact ih
  | link _ _ _ ih => exact Nat.le_succ_of_le ih

theorem Leads.append (h : Leads t k done cs k₁ mid) (h' : Leads t k₁ mid ds k' place) :
    Leads t k done (cs ++ ds) k' place := by
  induction h with
  | arrived => exact h'
  | root _ ih => exact .root (ih h')
  | here _ ih => exact .here (ih h')
  | parent _ ih => exact .parent (ih h')
  | dir short there _ ih => exact .dir short there (ih h')
  | link short there _ ih => exact .link short there (List.append_assoc .. ▸ ih h')

/-- Where no link is followed a name leads to the directory of that name. -/
theorem Leads.of_name {s : String} {rest : List Path.Component}
    (h : Leads t k done (.name s :: rest) k place) :
    Leads t k done [.name s] k (done ++ [s]) ∧ Leads t k (done ++ [s]) rest k place := by
  cases h with
  | dir short there on => exact ⟨.dir short there .arrived, on⟩
  | link _ _ on => exact absurd on.le (Nat.not_succ_le_self _)

/-- Where no link is followed, what is left of the components leads to where they do. -/
theorem Leads.takeBack {rooted : Bool} {left : List Path.Component} (top : rooted = true → start = [])
    (before : Leads t k start left.reverse k mid) (after : Leads t k mid cs k place) :
    Leads t k start (cs.foldl (takeBack rooted) left).reverse k place := by
  induction cs generalizing left mid with
  | nil =>
      cases after
      exact before
  | cons c cs ih =>
      have push : ∀ {next}, Leads t k mid [c] k next → Leads t k start (c :: left).reverse k next :=
        fun step => List.reverse_cons ▸ before.append step
      cases c with
      | root =>
          cases after with
          | root on => exact ih (push (.root .arrived)) on
      | here =>
          cases after with
          | here on => exact ih (push (.here .arrived)) on
      | name s =>
          obtain ⟨step, on⟩ := after.of_name
          exact ih (push step) on
      | parent =>
          cases after with
          | parent on =>
              have up := push (.parent .arrived)
              refine ih ?_ on
              cases left with
              | nil =>
                  cases rooted with
                  | false => exact up
                  | true =>
                      cases before
                      rw [top rfl]
                      exact .arrived
              | cons d left =>
                  cases d with
                  | name s =>
                      obtain ⟨k₁, m, front, last⟩ := before.split List.reverse_cons
                      obtain rfl : k₁ = k := Nat.le_antisymm front.le last.le
                      cases last.of_name.2
                      rw [List.dropLast_concat]
                      exact front
                  | _ => exact up

/-- No `..` of a path, seen from a directory, comes after a link. -/
def Straight (t : Files) (cwd p : Path) : Prop :=
  ∀ front back, parts p.text = front ++ .parent :: back → ∃ k start place,
    Leads t linkLimit [] (origin cwd p) k start ∧ Leads t k start front k place

theorem straight_of_names {cwd p : Path} (names : .parent ∉ parts p.text) : Straight t cwd p :=
  fun _ _ here => absurd (here ▸ List.mem_append_right _ List.mem_cons_self) names

section clean
variable {cwd p : Path} (abs : cwd.isAbsolute = true)
include abs

theorem walk_clean (straight : Straight t cwd p) :
    t.walk true linkLimit [] (cwd / p.clean.text).components =
      t.walk true linkLimit [] (cwd / p.text).components := by
  rw [Path.components_from_clean abs, Path.components_from_self abs]
  by_cases up : .parent ∈ parts p.text
  · obtain ⟨after, before, found, behind⟩ := List.eq_append_cons_of_mem (List.mem_reverse.mpr up)
    obtain ⟨front, back, split, names⟩ : ∃ front back, parts p.text = front ++ .parent :: back ∧
        .parent ∉ back := by
      refine ⟨before.reverse, after.reverse, ?_, by simpa using behind⟩
      rw [← List.reverse_reverse (parts p.text), found]
      simp
    obtain ⟨k, start, place, there, led⟩ := straight _ _ split
    have top : p.isAbsolute = true → start = [] := by
      intro rooted
      rw [origin, rooted] at there
      cases there with
      | root on =>
          cases on
          rfl
    have whole : Leads t k start (front ++ [.parent]) k place.dropLast :=
      led.append (.parent .arrived)
    have left : Leads t k start ((front ++ [Path.Component.parent]).foldl (takeBack p.isAbsolute) []).reverse
        k place.dropLast := .takeBack top .arrived whole
    rw [List.append_cons] at split
    rw [split, cleanParts, List.foldl_append, Path.foldl_takeBack_names names, List.reverse_append,
      List.reverse_reverse, ← List.append_assoc, ← List.append_assoc,
      (there.append left).walk true _ (.inr rfl), (there.append whole).walk true _ (.inr rfl)]
  · rw [cleanParts, Path.foldl_takeBack_names up, List.append_nil, List.reverse_reverse]

end clean

theorem check_eq_ok_iff {q : Path} : check q = .ok () ↔
    '\x00' ∉ q.text.toList ∧ q.text ≠ "" ∧ q.text.utf8ByteSize ≤ pathLimit := by
  unfold check
  split
  · next zero => simp [List.contains_iff_mem.mp zero]
  · next zero =>
      split
      · next empty => simp [empty]
      · next ne =>
          split
          · next long => simp [Nat.not_le.mpr long]
          · next short =>
              refine ⟨fun _ => ⟨fun inside => zero (List.contains_iff_mem.mpr inside), ne, ?_⟩, fun _ => rfl⟩
              exact Nat.le_of_not_lt short

/-- What a directory puts before the relative paths that are seen from it, or before the absolute ones. -/
theorem exists_before (cwd : Path) (rooted : Bool) : ∃ before : String, ∀ q : Path,
    q.isAbsolute = rooted → (cwd / q.text).text = before ++ q.text := by
  cases rooted with
  | true => exact ⟨"", fun q rooted => by
      rw [Path.join_absolute rooted, String.empty_append]⟩
  | false =>
      by_cases empty : cwd.text = ""
      · refine ⟨"", fun q relative => ?_⟩
        change (Path.join cwd q.text).text = _
        rw [Path.join, if_neg (by simpa using relative), if_pos empty, String.empty_append]
      · by_cases slash : Text.endsWith "/" cwd.text = true
        · refine ⟨cwd.text, fun q relative => ?_⟩
          change (Path.join cwd q.text).text = _
          rw [Path.join, if_neg (by simpa using relative), if_neg empty, if_pos slash]
        · refine ⟨cwd.text ++ "/", fun q relative => ?_⟩
          change (Path.join cwd q.text).text = _
          rw [Path.join, if_neg (by simpa using relative), if_neg empty, if_neg slash]

theorem from_ne_empty {q : Path} (cwd : Path) (ne : q.text ≠ "") : (cwd / q.text).text ≠ "" := by
  obtain ⟨before, text⟩ := exists_before cwd q.isAbsolute
  rw [text q rfl]
  simp [ne]

/-- With some of its characters left out a path can be written as before. -/
theorem check_of_sublist {cwd p q : Path} (same : q.isAbsolute = p.isAbsolute) (ne : (cwd / q.text).text ≠ "")
    (inside : q.text.toList.Sublist p.text.toList) (written : check (cwd / p.text) = .ok ()) :
    check (cwd / q.text) = .ok () := by
  obtain ⟨before, text⟩ := exists_before cwd p.isAbsolute
  rw [check_eq_ok_iff, text p rfl] at written
  rw [text q same] at ne
  rw [check_eq_ok_iff, text q same]
  obtain ⟨plain, _, short⟩ := written
  rw [String.toList_append, List.mem_append, not_or] at plain ⊢
  rw [String.utf8ByteSize_append] at short ⊢
  have size : ∀ s : String, s.utf8ByteSize = String.utf8Len s.toList := fun s => by
    rw [← String.utf8ByteSize_ofList, String.ofList_toList]
  refine ⟨⟨plain.1, fun zero => plain.2 (inside.subset zero)⟩, ne, ?_⟩
  refine Nat.le_trans (Nat.add_le_add_left ?_ _) short
  rw [size, size]
  exact String.utf8Len_le_of_sublist inside

/-- A path that can be written can be written clean. -/
theorem check_clean {cwd p : Path} (ne : p.text ≠ "") (written : check (cwd / p.text) = .ok ()) :
    check (cwd / p.clean.text) = .ok () := by
  rcases Path.clean_sublist p with dot | inside
  · obtain ⟨before, text⟩ := exists_before cwd p.isAbsolute
    rw [check_eq_ok_iff, text p rfl] at written
    rw [check_eq_ok_iff, text p.clean (Path.isAbsolute_clean p), dot]
    obtain ⟨plain, _, short⟩ := written
    rw [String.toList_append, List.mem_append, not_or] at plain ⊢
    rw [String.utf8ByteSize_append] at short ⊢
    refine ⟨⟨plain.1, by decide⟩, by simp, Nat.le_trans (Nat.add_le_add_left ?_ _) short⟩
    exact Nat.one_le_iff_ne_zero.mpr fun zero => ne (String.utf8ByteSize_eq_zero_iff.mp zero)
  · exact check_of_sublist (Path.isAbsolute_clean p) (from_ne_empty cwd (Path.clean_ne_empty p)) inside written

/-- A path that leads somewhere leads there when it is clean. -/
theorem locate_clean {h : Host} {p : Path} {ns : List String} (abs : h.cwd.isAbsolute = true)
    (straight : Straight h.files h.cwd p) (found : h.files.locate true (h.absolute p) = .ok ns) :
    h.files.locate true (h.absolute p.clean) = .ok ns := by
  have ne : p.text ≠ "" := by
    intro empty
    rw [Host.absolute, if_pos empty, locate, check, empty] at found
    cases found
  rw [absolute_of_ne ne] at found
  have written := check_of_locate found
  rw [absolute_of_ne (Path.clean_ne_empty p), locate_eq (check_clean ne written), walk_clean abs straight,
    ← locate_eq written, found]

/-- What stands at a path stands at the clean one. -/
theorem kind_clean {h : Host} {p : Path} {kind : FileKind} (abs : h.cwd.isAbsolute = true)
    (straight : Straight h.files h.cwd p) (there : (h.answer (.kind p true)).1 = .ok kind) :
    (h.answer (.kind p.clean true)).1 = .ok kind := by
  change Host.kind h.files (h.absolute p) true = .ok kind at there
  change Host.kind h.files (h.absolute p.clean) true = .ok kind
  unfold Host.kind at there ⊢
  cases found : h.files.locate true (h.absolute p) with
  | error e =>
      rw [found] at there
      cases there
  | ok ns =>
      rw [locate_clean abs straight found]
      rw [found] at there
      exact there

end LanguageHost.Files
