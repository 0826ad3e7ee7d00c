import Mathlib.Data.List.Nodup
import Mathlib.Data.List.Perm.Basic
import LanguageHost.Json.Record
import LanguageHost.Proofs.Table

/-! How lists are read item by item, and records field by field. The meaning of a free-form value is its own
meaning: only a number that JSON cannot write becomes null. -/
namespace LanguageHost.Json

/-- What each item is read back from, the list is. -/
theorem mapM_map_eq {read : β → Option α} {write : α → β} {as : List α}
    (each : ∀ a ∈ as, read (write a) = some a) : (as.map write).mapM read = some as := by
  induction as with
  | nil => rfl
  | cons a as ih =>
      rw [List.map_cons, List.mapM_cons, each a (by simp), ih fun b later => each b (by simp [later])]
      rfl

theorem exists_of_mapM {read : β → Option α} {bs : List β} {as : List α} (h : bs.mapM read = some as)
    {a : α} (there : a ∈ as) : ∃ b ∈ bs, read b = some a := by
  induction bs generalizing as with
  | nil =>
      cases h
      cases there
  | cons b bs ih =>
      rw [List.mapM_cons] at h
      obtain ⟨first, here, h⟩ := Option.bind_eq_some_iff.mp h
      obtain ⟨rest, later, made⟩ := Option.bind_eq_some_iff.mp h
      cases made
      rcases List.mem_cons.mp there with rfl | there
      · exact ⟨b, by simp, here⟩
      · obtain ⟨b', inside, same⟩ := ih later there
        exact ⟨b', by simp [inside], same⟩

/-- The items are read one by one. -/
theorem mapM_eq_some_iff {f : α → Option β} {as : List α} {bs : List β} :
    as.mapM f = some bs ↔ List.Forall₂ (fun a b => f a = some b) as bs := by
  induction as generalizing bs with
  | nil => simp [eq_comm]
  | cons a as ih =>
      rw [List.mapM_cons, List.forall₂_cons_left_iff]
      simp only [bind, pure, Option.bind_eq_some_iff, Option.some.injEq, ih]
      constructor
      · rintro ⟨b, first, bs, rest, rfl⟩
        exact ⟨b, bs, first, rest, rfl⟩
      · rintro ⟨b, bs, first, rest, rfl⟩
        exact ⟨b, first, bs, rest, rfl⟩

theorem exists_mapM {f : α → Option β} {as : List α} (each : ∀ a ∈ as, ∃ b, f a = some b) :
    ∃ bs, as.mapM f = some bs := by
  induction as with
  | nil => exact ⟨[], rfl⟩
  | cons a as ih =>
      obtain ⟨b, first⟩ := each a List.mem_cons_self
      obtain ⟨bs, rest⟩ := ih fun other there => each other (List.mem_cons_of_mem _ there)
      exact ⟨b :: bs, mapM_eq_some_iff.mpr (.cons first (mapM_eq_some_iff.mp rest))⟩

theorem exists_mem_mapM {f : α → Option β} {as : List α} {bs : List β} (read : as.mapM f = some bs)
    {a : α} (there : a ∈ as) : ∃ b ∈ bs, f a = some b := by
  have each := mapM_eq_some_iff.mp read
  clear read
  induction each with
  | nil => cases there
  | @cons a' b _ _ first _ ih =>
      rcases List.mem_cons.mp there with rfl | there
      · exact ⟨b, List.mem_cons_self, first⟩
      · obtain ⟨b', inside, same⟩ := ih there
        exact ⟨b', List.mem_cons_of_mem _ inside, same⟩

theorem exists_mapM_perm {f : α → Option β} {as as' : List α} (same : as.Perm as') {bs : List β}
    (read : as.mapM f = some bs) : ∃ bs', as'.mapM f = some bs' ∧ bs.Perm bs' := by
  have moved : Relation.Comp List.Perm (List.Forall₂ fun a b => f a = some b) as' bs :=
    ⟨as, same.symm, mapM_eq_some_iff.mp read⟩
  rw [← List.forall₂_comp_perm_eq_perm_comp_forall₂] at moved
  obtain ⟨bs', read', perm⟩ := moved
  exact ⟨bs', mapM_eq_some_iff.mpr read', perm.symm⟩

theorem mapM_map {f : α → Option γ} {g : α → Option β} {h : β → γ}
    (same : ∀ a, f a = (g a).map h) (as : List α) : as.mapM f = (as.mapM g).map (List.map h) := by
  induction as with
  | nil => rfl
  | cons a as ih =>
    rw [List.mapM_cons, List.mapM_cons, same, ih]
    cases g a with
    | none => rfl
    | some b => cases as.mapM g <;> rfl

namespace Record
variable {r : Record} {name : String} {value : Json → Option α}

/-- A record that repeats no member can be read with any fields in view. -/
theorem ofJson?_obj {members : List (String × Json)} (distinct : (members.map Prod.fst).Nodup)
    (names : List String) : ofJson? names (.obj members) = some ⟨false, members⟩ := by
  apply if_pos
  apply List.all_eq_true.mpr
  intro name _
  rw [decide_eq_true_iff]
  have counted : occurrences name members = (members.map Prod.fst).count name := by
    unfold occurrences List.count
    rw [List.countP_map]
    rfl
  rw [counted]
  exact List.nodup_iff_count_le_one.mp distinct name

theorem optional_some {j : Json} (there : r.values.lookup name = some j) (h : j ≠ .null) :
    r.optional name value = (value j).map some := by
  unfold optional
  rw [there]
  cases j with
  | null => exact absurd rfl h
  | _ => rfl

theorem optional_null (there : r.values.lookup name = some .null) : r.optional name value = some none := by
  unfold optional
  rw [there]

theorem optional_none (there : r.values.lookup name = none) (named : r.positional = false) :
    r.optional name value = some none := by
  simp [optional, there, named]

end Record

end LanguageHost.Json

namespace LanguageHost

namespace Table

theorem ofList_ofList (entries : List (String × α)) : ofList (ofList entries) = ofList entries :=
  (Sorted.insertAll List.Pairwise.nil entries).insertAll_of_perm (.refl _)

theorem mem_of_mem_ofList {entry : String × α} {entries : List (String × α)}
    (h : entry ∈ ofList entries) : entry ∈ entries :=
  (mem_insertAll h).resolve_left List.not_mem_nil

theorem sorted_ofList (entries : List (String × α)) : Sorted (ofList entries) :=
  Sorted.insertAll List.Pairwise.nil entries

/-- Entries under different keys are all there. -/
theorem lookup_ofList {entries : List (String × α)} (distinct : (keys entries).Nodup) {key : String}
    {value : α} (there : (key, value) ∈ entries) : (ofList entries).lookup key = some value := by
  have same : (ofList entries).Perm ([] ++ entries) := insertAll_perm distinct
  exact (sorted_ofList entries).mem_iff_get?.mp (same.mem_iff.mpr there)

theorem lookup_ofList_of_notMem {entries : List (String × α)} {key : String} (h : key ∉ keys entries) :
    (ofList entries).lookup key = none :=
  get?_insertAll_of_notMem h []

end Table

namespace Json

mutual

/-- A value that JSON can write. -/
def IsFinite : Json → Prop
  | .float x => x.isFinite = true
  | .arr items => FiniteItems items
  | .obj members => FiniteMembers members
  | _ => True

def FiniteItems : List Json → Prop
  | [] => True
  | j :: js => IsFinite j ∧ FiniteItems js

def FiniteMembers : List (String × Json) → Prop
  | [] => True
  | (_, j) :: rest => IsFinite j ∧ FiniteMembers rest

end

theorem finiteItems_iff {items : List Json} : FiniteItems items ↔ ∀ j ∈ items, j.IsFinite := by
  induction items with
  | nil => simp [FiniteItems]
  | cons j items ih => simp [FiniteItems, ih]

theorem finiteMembers_iff {members : List (String × Json)} :
    FiniteMembers members ↔ ∀ entry ∈ members, entry.2.IsFinite := by
  induction members with
  | nil => simp [FiniteMembers]
  | cons entry members ih => simp [FiniteMembers, ih]

theorem canonical_ne_null {j : Json} (finite : j.IsFinite) (h : j ≠ .null) : j.canonical ≠ .null := by
  cases j with
  | null => exact absurd rfl h
  | float x =>
    have finite : x.isFinite = true := by simpa [IsFinite] using finite
    rw [canonical, if_pos finite]
    nofun
  | _ => simp [canonical]

theorem canonicalItems_eq {items : List Json} (h : ∀ j ∈ items, j.canonical = j) :
    canonicalItems items = items := by
  induction items with
  | nil => rfl
  | cons j items ih =>
    rw [canonicalItems, h j List.mem_cons_self, ih fun j there => h j (List.mem_cons_of_mem _ there)]

theorem canonicalMembers_eq {members : List (String × Json)}
    (h : ∀ entry ∈ members, entry.2.canonical = entry.2) : canonicalMembers members = members := by
  induction members with
  | nil => rfl
  | cons entry members ih =>
    rw [canonicalMembers, h entry List.mem_cons_self,
      ih fun entry there => h entry (List.mem_cons_of_mem _ there)]

theorem canonical_object {members : List (String × Json)}
    (h : ∀ entry ∈ members, entry.2.canonical = entry.2) : (object members).canonical = object members := by
  have kept : ∀ entry ∈ Table.ofList members, entry.2.canonical = entry.2 :=
    fun entry there => h entry (Table.mem_of_mem_ofList there)
  rw [object, canonical, canonicalMembers_eq kept, Table.ofList_ofList]

mutual

theorem canonical_canonical : ∀ j : Json, j.canonical.canonical = j.canonical
  | .null | .bool _ | .int _ | .str _ => rfl
  | .float x => by
    rw [canonical]
    split
    · next finite => rw [canonical, if_pos finite]
    · rfl
  | .arr items => by
    rw [canonical, canonical, canonicalItems_eq (canonical_items items)]
  | .obj members => canonical_object (canonical_members members)

theorem canonical_items : ∀ (items : List Json), ∀ j ∈ canonicalItems items, j.canonical = j
  | [] => nofun
  | i :: items => by
    intro j there
    rcases List.mem_cons.mp there with rfl | later
    · exact canonical_canonical i
    · exact canonical_items items j later

theorem canonical_members :
    ∀ (members : List (String × Json)), ∀ entry ∈ canonicalMembers members, entry.2.canonical = entry.2
  | [] => nofun
  | (k, i) :: members => by
    intro entry there
    rcases List.mem_cons.mp there with rfl | later
    · exact canonical_canonical i
    · exact canonical_members members entry later

end

end Json

end LanguageHost
