import LanguageHost.Table

/-! Tables by what they answer: an entry made or taken away is the only one that changes, and of two
changes under one key the last one counts. -/
namespace LanguageHost.Table

theorem mem_of_lookup [BEq κ] [LawfulBEq κ] {entries : List (κ × α)} {key : κ} {a : α}
    (found : entries.lookup key = some a) : (key, a) ∈ entries := by
  obtain ⟨before, after, rfl, -⟩ := List.lookup_eq_some_iff.mp found
  simp

theorem get?_cons (key k : String) (v : α) (t : Table α) :
    get? key ((k, v) :: t) = if key = k then some v else get? key t := by
  simp only [get?, List.lookup_cons]
  split
  · next same => simp [beq_iff_eq.mp same]
  · next other => rw [if_neg (by simpa using other)]

theorem get?_insert (key other : String) (v : α) (t : Table α) :
    get? other (insert key v t) = if other = key then some v else get? other t := by
  induction t with
  | nil => rw [insert, get?_cons]
  | cons entry rest ih =>
      obtain ⟨k, w⟩ := entry
      rw [insert]
      split
      · next same =>
          subst k
          simp only [get?_cons]
          split <;> rfl
      · next different =>
          split
          · simp only [get?_cons]
          · rw [get?_cons, ih, get?_cons]
            by_cases hk : other = k
            · simp [hk, Ne.symm different]
            · simp [hk]

@[simp] theorem get?_insert_self (key : String) (v : α) (t : Table α) :
    get? key (insert key v t) = some v := by
  rw [get?_insert, if_pos rfl]

theorem get?_insert_of_ne {key other : String} (h : other ≠ key) (v : α) (t : Table α) :
    get? other (insert key v t) = get? other t := by
  rw [get?_insert, if_neg h]

theorem get?_erase (key other : String) (t : Table α) :
    get? other (erase key t) = if other = key then none else get? other t := by
  induction t with
  | nil => simp [erase, get?]
  | cons entry rest ih =>
      obtain ⟨k, w⟩ := entry
      by_cases hk : k = key
      · subst k
        have gone : erase key ((key, w) :: rest) = erase key rest := by simp [erase]
        rw [gone, ih, get?_cons]
        split <;> rfl
      · have kept : erase key ((k, w) :: rest) = (k, w) :: erase key rest := by simp [erase, hk]
        rw [kept, get?_cons, ih, get?_cons]
        by_cases ho : other = k
        · simp [ho, hk]
        · simp [ho]

/-- Of several entries under a key the last one counts; without one it is as before. -/
theorem get?_insertAll (key : String) (entries : List (String × α)) (t : Table α) :
    get? key (insertAll t entries) = (entries.reverse.lookup key).or (get? key t) := by
  induction entries generalizing t with
  | nil => rfl
  | cons entry entries ih =>
      obtain ⟨k, v⟩ := entry
      have before : get? key (insert k v t) = (List.lookup key [(k, v)]).or (get? key t) := by
        rw [get?_insert, ← get?, get?_cons]
        split <;> rfl
      rw [List.reverse_cons, List.lookup_append, Option.or_assoc, ← before]
      exact ih (insert k v t)

theorem lookup_reverse_of_notMem {entries : List (String × α)} {other : String}
    (h : other ∉ keys entries) : entries.reverse.lookup other = none := by
  refine List.lookup_eq_none_iff.mpr fun entry there => ?_
  simp only [bne_iff_ne, ne_eq]
  rintro rfl
  exact h (List.mem_map_of_mem (List.mem_reverse.mp there))

/-- Only the keys that are entered change. -/
theorem get?_insertAll_of_notMem {entries : List (String × α)} {other : String}
    (h : other ∉ keys entries) (t : Table α) : get? other (insertAll t entries) = get? other t := by
  rw [get?_insertAll, lookup_reverse_of_notMem h, Option.none_or]

/-- One value under several keys is there under each of them. -/
theorem get?_insertAll_of_mem {ks : List String} {key : String} (h : key ∈ ks) (v : α) (t : Table α) :
    get? key (insertAll t (ks.map fun k => (k, v))) = some v := by
  induction ks generalizing t with
  | nil => cases h
  | cons k ks ih =>
      by_cases later : key ∈ ks
      · exact ih later _
      · obtain rfl : key = k := (List.mem_cons.mp h).resolve_right later
        have other : key ∉ keys (ks.map fun k => (k, v)) := by simpa [keys] using later
        exact (get?_insertAll_of_notMem other _).trans (get?_insert_self key v t)

theorem erase_insert (key : String) (v : α) (t : Table α) :
    erase key (insert key v t) = erase key t := by
  induction t with
  | nil => simp [insert, erase]
  | cons entry rest ih =>
      obtain ⟨k, w⟩ := entry
      rw [insert]
      split
      · next same => simp [erase, same]
      · split
        · simp [erase]
        · simp only [erase] at ih ⊢
          rw [List.filter_cons, List.filter_cons, ih]

theorem insert_insert (key : String) (v w : α) (t : Table α) :
    insert key v (insert key w t) = insert key v t := by
  induction t with
  | nil => simp [insert]
  | cons entry rest ih =>
      obtain ⟨k, u⟩ := entry
      by_cases same : key = k
      · simp [insert, same]
      · by_cases less : key < k
        · simp [insert, same, less]
        · simp [insert, same, less, ih]

theorem erase_of_absent {key : String} {t : Table α} (h : get? key t = none) : erase key t = t := by
  apply List.filter_eq_self.mpr
  intro entry hmem
  simp only [decide_eq_true_eq]
  intro same
  have := List.lookup_eq_none_iff.mp h entry hmem
  simp [same] at this

theorem mem_keys_of_mem_keys_insert {key k : String} {v : α} {t : Table α}
    (h : k ∈ keys (insert key v t)) : k = key ∨ k ∈ keys t := by
  induction t with
  | nil => simpa [insert, keys] using h
  | cons entry rest ih =>
      obtain ⟨other, w⟩ := entry
      rw [insert] at h
      split at h
      · next same =>
          subst same
          exact .inr h
      · split at h
        · simpa [keys] using h
        · rcases List.mem_cons.mp h with first | later
          · exact .inr (List.mem_cons.mpr (.inl first))
          · exact (ih later).imp_right fun old => List.mem_cons_of_mem _ old

theorem mem_keys_of_mem_keys_erase {key k : String} {t : Table α} (h : k ∈ keys (erase key t)) :
    k ∈ keys t := by
  obtain ⟨entry, hentry, rfl⟩ := List.mem_map.mp h
  exact List.mem_map_of_mem (List.mem_filter.mp hentry).1

/-! The order of the keys. Two tables in order that hold the same entries are the same table, so the order
in which entries were made is forgotten. -/

def Sorted (t : Table α) : Prop := t.Pairwise fun a b => a.1 < b.1

theorem mem_insert {entry : String × α} {key : String} {v : α} {t : Table α}
    (h : entry ∈ insert key v t) : entry = (key, v) ∨ entry ∈ t := by
  induction t with
  | nil => simpa [insert] using h
  | cons first rest ih =>
      obtain ⟨k, w⟩ := first
      rw [insert] at h
      split at h
      · exact (List.mem_cons.mp h).imp_right (List.mem_cons_of_mem _)
      · split at h
        · exact List.mem_cons.mp h
        · rcases List.mem_cons.mp h with rfl | later
          · exact .inr List.mem_cons_self
          · exact (ih later).imp_right (List.mem_cons_of_mem _)

theorem mem_insertAll {entry : String × α} {entries : List (String × α)} {t : Table α}
    (h : entry ∈ insertAll t entries) : entry ∈ t ∨ entry ∈ entries := by
  induction entries generalizing t with
  | nil => exact .inl h
  | cons first rest ih =>
      rcases ih h with before | later
      · rcases mem_insert before with rfl | there
        · exact .inr List.mem_cons_self
        · exact .inl there
      · exact .inr (List.mem_cons_of_mem _ later)

theorem Sorted.insert {t : Table α} (h : Sorted t) (key : String) (v : α) :
    Sorted (insert key v t) := by
  induction t with
  | nil => exact List.pairwise_singleton _ _
  | cons first rest ih =>
      obtain ⟨k, w⟩ := first
      obtain ⟨before, rest_sorted⟩ := List.pairwise_cons.mp h
      rw [Table.insert]
      split
      · next same =>
          subst same
          exact List.pairwise_cons.mpr ⟨before, rest_sorted⟩
      · next other =>
          split
          · next less =>
              refine List.pairwise_cons.mpr ⟨fun entry hmem => ?_, h⟩
              rcases List.mem_cons.mp hmem with rfl | later
              · exact less
              · exact String.lt_trans less (before entry later)
          · next notLess =>
              refine List.pairwise_cons.mpr ⟨fun entry hmem => ?_, ih rest_sorted⟩
              rcases mem_insert hmem with rfl | later
              · exact Std.lt_of_le_of_ne (String.not_lt.mp notLess) (Ne.symm other)
              · exact before entry later

theorem Sorted.insertAll {t : Table α} (h : Sorted t) (entries : List (String × α)) :
    Sorted (insertAll t entries) := by
  induction entries generalizing t with
  | nil => exact h
  | cons entry entries ih => exact ih (h.insert entry.1 entry.2)

theorem Sorted.nodup_keys {t : Table α} (h : Sorted t) : (keys t).Nodup :=
  List.Pairwise.map _ (fun _ _ less same => String.lt_irrefl _ (same ▸ less)) h

theorem Sorted.eq_of_perm {t u : Table α} (ht : Sorted t) (hu : Sorted u) (same : t.Perm u) :
    t = u :=
  List.Perm.eq_of_pairwise (fun _ _ _ _ less more => absurd more (String.lt_asymm less)) ht hu same

theorem Sorted.mem_iff_get? {t : Table α} (h : Sorted t) {key : String} {v : α} :
    (key, v) ∈ t ↔ get? key t = some v := by
  induction t with
  | nil => simp [get?]
  | cons first rest ih =>
      obtain ⟨k, w⟩ := first
      obtain ⟨before, rest_sorted⟩ := List.pairwise_cons.mp h
      rw [get?_cons, List.mem_cons, ih rest_sorted]
      split
      · next same =>
          subst same
          have absent : get? key rest ≠ some v := fun found =>
            String.lt_irrefl key (before (key, v) ((ih rest_sorted).mpr found))
          simp [absent, eq_comm]
      · next other => simp [other]

theorem Sorted.ext {t u : Table α} (ht : Sorted t) (hu : Sorted u)
    (same : ∀ key, get? key t = get? key u) : t = u := by
  have distinct {t : Table α} (h : Sorted t) : t.Nodup := by
    refine List.Pairwise.imp (fun {a b} less same => ?_) h
    subst same
    exact String.lt_irrefl a.1 less
  refine ht.eq_of_perm hu ((List.perm_ext_iff_of_nodup (distinct ht) (distinct hu)).mpr ?_)
  rintro ⟨key, v⟩
  rw [ht.mem_iff_get?, hu.mem_iff_get?, same]

theorem Sorted.erase {t : Table α} (h : Sorted t) (key : String) : Sorted (erase key t) :=
  List.Pairwise.filter _ h

theorem Sorted.insert_erase {t : Table α} (h : Sorted t) {key : String} {v : α}
    (there : get? key t = some v) : Table.insert key v (Table.erase key t) = t := by
  refine ((h.erase key).insert key v).ext h fun other => ?_
  rw [get?_insert]
  split
  · next same => rw [same, there]
  · next different => rw [get?_erase, if_neg different]

theorem insert_perm {key : String} {v : α} {t : Table α} (h : key ∉ keys t) :
    (insert key v t).Perm ((key, v) :: t) := by
  induction t with
  | nil => exact .refl _
  | cons first rest ih =>
      obtain ⟨k, w⟩ := first
      simp only [keys, List.map_cons, List.mem_cons, not_or] at h
      rw [insert, if_neg h.1]
      split
      · exact .refl _
      · exact ((ih h.2).cons _).trans (.swap ..)

theorem insertAll_perm {t : Table α} {entries : List (String × α)}
    (distinct : (keys (t ++ entries)).Nodup) : (insertAll t entries).Perm (t ++ entries) := by
  induction entries generalizing t with
  | nil => simp [insertAll]
  | cons entry entries ih =>
      obtain ⟨key, v⟩ := entry
      have absent : key ∉ keys t := by
        simp only [keys, List.map_append, List.map_cons] at distinct
        intro there
        exact (List.nodup_append.mp distinct).2.2 key there key List.mem_cons_self rfl
      have moved : (insert key v t ++ entries).Perm (t ++ (key, v) :: entries) :=
        ((insert_perm absent).append_right entries).trans List.perm_middle.symm
      exact (ih ((moved.map Prod.fst).nodup_iff.mpr distinct)).trans moved

/-- A table in order is what its entries make, whatever their order. -/
theorem Sorted.insertAll_of_perm {t : Table α} (h : Sorted t) {entries : List (String × α)}
    (same : entries.Perm t) : Table.insertAll [] entries = t := by
  have start : Sorted ([] : Table α) := List.Pairwise.nil
  refine (start.insertAll entries).eq_of_perm h ((insertAll_perm ?_).trans same)
  exact (same.map Prod.fst).nodup_iff.mpr h.nodup_keys

/-- Entries under keys that differ make the same table in any order. -/
theorem ofList_perm {entries others : List (String × α)} (same : entries.Perm others)
    (distinct : (keys entries).Nodup) : ofList entries = ofList others := by
  have start : Sorted ([] : Table α) := List.Pairwise.nil
  have distinct' : (keys others).Nodup := (same.map Prod.fst).nodup_iff.mp distinct
  have made : (ofList entries).Perm entries := insertAll_perm (t := []) distinct
  have made' : (ofList others).Perm others := insertAll_perm (t := []) distinct'
  exact (start.insertAll entries).eq_of_perm (start.insertAll others) (made.trans (same.trans made'.symm))

/-- What a table in order enters stands above what is there. -/
theorem Sorted.get?_insertAll {entries : Table α} (h : Sorted entries) (key : String) (t : Table α) :
    get? key (Table.insertAll t entries) = (get? key entries).or (get? key t) := by
  have last := Table.get?_insertAll key entries []
  rw [h.insertAll_of_perm (.refl _)] at last
  rw [Table.get?_insertAll, last]
  exact congrArg (Option.or · _) (Option.or_none ..).symm

end LanguageHost.Table
