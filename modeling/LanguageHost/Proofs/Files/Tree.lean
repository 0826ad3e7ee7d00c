import Mathlib.Data.List.Infix
import LanguageHost.Machine.Files
import LanguageHost.Proofs.Table

/-! What one change of a tree does to every place in it: the place and what is below it, the directories
above it, and all the others. -/
namespace LanguageHost.Files

theorem get?_append (t : Files) (p q : List String) :
    t.get? (p ++ q) = (t.get? p).bind (·.get? q) := by
  induction p generalizing t with
  | nil => simp [get?]
  | cons s p ih =>
      cases t with
      | dir es =>
          rw [List.cons_append, get?, get?]
          cases Table.get? s es with
          | none => rfl
          | some child => exact ih child
      | file content executable => rfl
      | link target => rfl

theorem get?_concat (t : Files) (p : List String) (s : String) :
    t.get? (p ++ [s]) = (t.get? p).bind fun x => Table.get? s x.entries := by
  rw [get?_append]
  congr
  funext x
  cases x with
  | dir es => cases h : Table.get? s es <;> simp [get?, entries, h]
  | file content executable => rfl
  | link target => rfl

theorem get?_below_absent {t : Files} {p q : List String} (h : t.get? p = none) (pre : p <+: q) :
    t.get? q = none := by
  obtain ⟨r, rfl⟩ := pre
  rw [get?_append, h]
  rfl

/-- The directories on the way to something are there. -/
theorem dir_of_get?_concat {t : Files} {p : List String} {s : String} {x : Files}
    (h : t.get? (p ++ [s]) = some x) : ∃ es, t.get? p = some (.dir es) := by
  rw [get?_concat] at h
  obtain ⟨y, hy, hx⟩ := Option.bind_eq_some_iff.mp h
  cases y with
  | dir es => exact ⟨es, hy⟩
  | file content executable => simp [entries, Table.get?] at hx
  | link target => simp [entries, Table.get?] at hx

theorem dir_strictly_above {t : Files} {p q : List String} {x : Files} (h : t.get? q = some x)
    (pre : p <+: q) (strict : p ≠ q) : ∃ es, t.get? p = some (.dir es) := by
  obtain ⟨r, rfl⟩ := pre
  cases r with
  | nil => simp at strict
  | cons s r =>
      rw [List.append_cons, get?_append] at h
      obtain ⟨y, hy, _⟩ := Option.bind_eq_some_iff.mp h
      exact dir_of_get?_concat hy

/-! Changing a tree one directory at a time. -/

theorem put_leaf {t : Files} (h : t.isDirectory = false) (entry : Option Files) (s : String)
    (p : List String) : t.put entry (s :: p) = t := by
  cases t with
  | dir es => cases h
  | file content executable => cases p <;> rfl
  | link target => cases p <;> rfl

theorem put_last (entry : Option Files) (es : List (String × Files)) (s : String) :
    (dir es).put entry [s] = dir (match entry with
      | some x => Table.insert s x es
      | none => Table.erase s es) := by
  cases entry <;> rfl

theorem put_deeper (entry : Option Files) (es : List (String × Files)) (s r : String)
    (p : List String) :
    (dir es).put entry (s :: r :: p) = match Table.get? s es with
      | some child => dir (Table.insert s (child.put entry (r :: p)) es)
      | none => dir es := rfl

theorem put_isDirectory (entry : Option Files) (t : Files) (s : String) (p : List String) :
    (t.put entry (s :: p)).isDirectory = t.isDirectory := by
  cases t with
  | dir es =>
      cases p with
      | nil => cases entry <;> rfl
      | cons r p =>
          rw [put_deeper]
          cases Table.get? s es <;> rfl
  | file content executable => rw [put_leaf rfl]
  | link target => rw [put_leaf rfl]

/-- Either the same, or both directories: what a place holds before and after a change below it. -/
def Alike (x y : Option Files) : Prop :=
  x = y ∨ ∃ es es', x = some (.dir es) ∧ y = some (.dir es')

theorem Alike.refl (x : Option Files) : Alike x x := .inl rfl

theorem Alike.symm {x y : Option Files} (h : Alike x y) : Alike y x := by
  rcases h with rfl | ⟨es, es', hx, hy⟩
  · exact .refl x
  · exact .inr ⟨es', es, hy, hx⟩

theorem Alike.trans {x y z : Option Files} (h : Alike x y) (h' : Alike y z) : Alike x z := by
  rcases h with rfl | ⟨es, es', hx, hy⟩
  · exact h'
  · rcases h' with rfl | ⟨fs, fs', hy', hz⟩
    · exact .inr ⟨es, es', hx, hy⟩
    · exact .inr ⟨es, fs', hx, hz⟩

theorem Alike.isDirectory {x y : Files} (h : Alike (some x) (some y)) :
    x.isDirectory = y.isDirectory := by
  rcases h with h | ⟨es, es', hx, hy⟩
  · rw [Option.some.inj h]
  · rw [Option.some.inj hx, Option.some.inj hy]
    rfl

theorem Alike.eq_none {x : Option Files} (h : Alike none x) : x = none := by
  rcases h with h | ⟨es, es', hx, _⟩
  · exact h.symm
  · cases hx

theorem Alike.exists_dir {x : Option Files} {es : List (String × Files)}
    (h : Alike (some (.dir es)) x) : ∃ es', x = some (.dir es') := by
  rcases h with h | ⟨_, es', _, hx⟩
  · exact ⟨es, h.symm⟩
  · exact ⟨es', hx⟩

theorem Alike.eq_link {x : Option Files} {target : Path} (h : Alike (some (.link target)) x) :
    x = some (.link target) := by
  rcases h with h | ⟨es, _, hx, _⟩
  · exact h.symm
  · cases hx

/-! The place itself, and what is below it. -/

theorem get?_put_none {d : List String} (ne : d ≠ []) (t : Files) (r : List String) :
    (t.put none d).get? (d ++ r) = none := by
  induction d generalizing t with
  | nil => contradiction
  | cons s d ih =>
      cases t with
      | file content executable => rw [put_leaf rfl]; rfl
      | link target => rw [put_leaf rfl]; rfl
      | dir es =>
          cases d with
          | nil =>
              rw [put_last, List.cons_append, get?]
              simp only [Table.get?_erase, if_true, Option.bind_none]
          | cons u d =>
              rw [put_deeper, List.cons_append]
              cases hs : Table.get? s es with
              | none => simp [get?, hs]
              | some child =>
                  rw [get?]
                  simp only [Table.get?_insert_self, Option.bind_some]
                  exact ih (by simp) child

theorem get?_put_some {t : Files} {p : List String} {es : List (String × Files)}
    (parent : t.get? p = some (.dir es)) (x : Files) (s : String) :
    (t.put (some x) (p ++ [s])).get? (p ++ [s]) = some x := by
  induction p generalizing t with
  | nil =>
      obtain rfl : t = .dir es := by simpa [get?] using parent
      simp [put_last, get?]
  | cons u p ih =>
      cases t with
      | file content executable => simp [get?] at parent
      | link target => simp [get?] at parent
      | dir fs =>
          rw [get?] at parent
          obtain ⟨child, hu, hchild⟩ := Option.bind_eq_some_iff.mp parent
          obtain ⟨v, q, hq⟩ : ∃ v q, p ++ [s] = v :: q := by
            cases p with
            | nil => exact ⟨s, [], rfl⟩
            | cons v q => exact ⟨v, q ++ [s], rfl⟩
          have deeper := ih hchild
          rw [hq] at deeper
          rw [List.cons_append, hq, put_deeper, hu, get?]
          simpa only [Table.get?_insert_self, Option.bind_some] using deeper

/-- Below a change stands what was put there, or nothing has changed for want of a directory above. -/
theorem get?_put_below {d : List String} (ne : d ≠ []) (entry : Option Files) (t : Files)
    (r : List String) : (t.put entry d).get? (d ++ r) = t.get? (d ++ r) ∨
      (t.put entry d).get? (d ++ r) = entry.bind (·.get? r) := by
  induction d generalizing t with
  | nil => contradiction
  | cons s d ih =>
      cases t with
      | file content executable => exact .inl (by rw [put_leaf rfl])
      | link target => exact .inl (by rw [put_leaf rfl])
      | dir es =>
          cases d with
          | nil =>
              right
              rw [put_last, List.cons_append, get?]
              cases entry with
              | none => simp only [Table.get?_erase, if_true, Option.bind_none]
              | some x => simp only [Table.get?_insert_self, Option.bind_some, List.nil_append]
          | cons u d =>
              rw [put_deeper]
              cases hs : Table.get? s es with
              | none => exact .inl rfl
              | some child =>
                  rw [List.cons_append, get?, get?, hs]
                  simp only [Table.get?_insert_self, Option.bind_some]
                  exact ih (by simp) child

/-- What a change below a directory makes of it. -/
theorem get?_put_above (entry : Option Files) (t : Files) (d : List String) (s : String) :
    (t.put entry (d ++ [s])).get? d = (t.get? d).map (·.put entry [s]) := by
  induction d generalizing t with
  | nil => rfl
  | cons u d ih =>
      cases t with
      | file content executable => rw [List.cons_append, put_leaf rfl]; rfl
      | link target => rw [List.cons_append, put_leaf rfl]; rfl
      | dir es =>
          obtain ⟨v, p, hp⟩ : ∃ v p, d ++ [s] = v :: p := by
            cases d with
            | nil => exact ⟨s, [], rfl⟩
            | cons v p => exact ⟨v, p ++ [s], rfl⟩
          rw [List.cons_append, hp, put_deeper, get?]
          cases hu : Table.get? u es with
          | none => simp [get?, hu]
          | some child =>
              rw [get?]
              simp only [Table.get?_insert_self, Option.bind_some]
              rw [← hp]
              exact ih child

theorem dir_put_above {t : Files} {d : List String} {es : List (String × Files)}
    (there : t.get? d = some (.dir es)) (entry : Option Files) (s : String) :
    ∃ es', (t.put entry (d ++ [s])).get? d = some (.dir es') := by
  rw [get?_put_above, there, Option.map_some, put_last]
  cases entry with
  | none => exact ⟨_, rfl⟩
  | some x => exact ⟨_, rfl⟩

/-! Places that are not below the changed one. -/

theorem alike_put {d p : List String} (h : ¬ d <+: p) (entry : Option Files) (t : Files) :
    Alike (t.get? p) ((t.put entry d).get? p) := by
  induction d generalizing t p with
  | nil => exact absurd (List.nil_prefix) h
  | cons s d ih =>
      cases t with
      | file content executable => rw [put_leaf rfl]; exact .refl _
      | link target => rw [put_leaf rfl]; exact .refl _
      | dir es =>
          cases p with
          | nil =>
              obtain ⟨es', h'⟩ : ∃ es', (dir es).put entry (s :: d) = dir es' := by
                have := put_isDirectory entry (dir es) s d
                cases hx : (dir es).put entry (s :: d) with
                | dir es' => exact ⟨es', rfl⟩
                | file content executable => rw [hx] at this; cases this
                | link target => rw [hx] at this; cases this
              exact .inr ⟨es, es', rfl, congrArg some h'⟩
          | cons u p =>
              rw [List.cons_prefix_cons] at h
              cases d with
              | nil =>
                  have other : u ≠ s := fun same => h ⟨same.symm, List.nil_prefix⟩
                  rw [put_last, get?, get?]
                  cases entry with
                  | none => exact .inl (by simp only [Table.get?_erase, if_neg other])
                  | some x => exact .inl (by simp only [Table.get?_insert_of_ne other])
              | cons r d =>
                  rw [put_deeper]
                  cases hs : Table.get? s es with
                  | none => exact .refl _
                  | some child =>
                      simp only [get?]
                      by_cases same : u = s
                      · subst u
                        rw [hs, Table.get?_insert_self]
                        exact ih (fun pre => h ⟨rfl, pre⟩) child
                      · exact .inl (by rw [Table.get?_insert_of_ne same])

theorem get?_put_apart {d p : List String} (h : ¬ d <+: p) (h' : ¬ p <+: d) (entry : Option Files)
    (t : Files) : (t.put entry d).get? p = t.get? p := by
  induction d generalizing t p with
  | nil => exact absurd (List.nil_prefix) h
  | cons s d ih =>
      cases p with
      | nil => exact absurd (List.nil_prefix) h'
      | cons u p =>
          rw [List.cons_prefix_cons] at h h'
          cases t with
          | file content executable => rw [put_leaf rfl]
          | link target => rw [put_leaf rfl]
          | dir es =>
              by_cases same : u = s
              · subst u
                cases d with
                | nil => exact absurd ⟨rfl, List.nil_prefix⟩ h
                | cons r d =>
                    rw [put_deeper]
                    cases hs : Table.get? s es with
                    | none => rfl
                    | some child =>
                        simp only [get?, hs, Table.get?_insert_self, Option.bind_some]
                        exact ih (fun pre => h ⟨rfl, pre⟩) (fun pre => h' ⟨rfl, pre⟩) child
              · cases d with
                | nil =>
                    rw [put_last, get?, get?]
                    cases entry with
                    | none => simp only [Table.get?_erase, if_neg same]
                    | some x => simp only [Table.get?_insert_of_ne same]
                | cons r d =>
                    rw [put_deeper]
                    cases hs : Table.get? s es with
                    | none => rfl
                    | some child => rw [get?, get?, Table.get?_insert_of_ne same]

/-- A new directory is the only new thing. -/
theorem get?_put_empty {t : Files} {q p : List String} (ne : q ≠ []) (absent : t.get? q = none)
    (h : ¬ p <+: q) : (t.put (some empty) q).get? p = t.get? p := by
  by_cases below : q <+: p
  · obtain ⟨r, rfl⟩ := below
    rcases get?_put_below ne (some empty) t r with same | new
    · exact same
    · cases r with
      | nil => simp at h
      | cons s r => rw [new, get?_below_absent absent (List.prefix_append q _)]; rfl
  · exact get?_put_apart below h (some empty) t

/-! The tree without a place. -/

/-- A change below a place is none to the tree without it. -/
theorem put_none_put_below {d : List String} (ne : d ≠ []) (entry : Option Files) (t : Files)
    (r : List String) : (t.put entry (d ++ r)).put none d = t.put none d := by
  induction d generalizing t with
  | nil => contradiction
  | cons s d ih =>
      cases t with
      | file content executable => rw [List.cons_append, put_leaf rfl entry s (d ++ r)]
      | link target => rw [List.cons_append, put_leaf rfl entry s (d ++ r)]
      | dir es =>
          cases d with
          | nil =>
              cases r with
              | nil =>
                  rw [List.append_nil, put_last]
                  cases entry with
                  | none =>
                      rw [put_last, put_last]
                      simp only [Table.erase_of_absent (Table.get?_erase s s es ▸ if_pos rfl)]
                  | some x =>
                      rw [put_last, put_last]
                      simp only [Table.erase_insert]
              | cons u r =>
                  rw [List.cons_append, List.nil_append, put_deeper]
                  cases hs : Table.get? s es with
                  | none => rfl
                  | some child =>
                      rw [put_last, put_last]
                      simp only [Table.erase_insert]
          | cons u d =>
              rw [List.cons_append, List.cons_append, put_deeper, put_deeper]
              cases hs : Table.get? s es with
              | none => simp only [put_deeper, hs]
              | some child =>
                  have deeper := ih (by simp) child
                  rw [List.cons_append] at deeper
                  simp only [put_deeper, Table.get?_insert_self, Table.insert_insert, deeper]

theorem alike_of_without {d p : List String} {t t' : Files} (h : ¬ d <+: p)
    (same : t'.put none d = t.put none d) : Alike (t.get? p) (t'.get? p) :=
  (alike_put h none t).trans (same ▸ (alike_put h none t').symm)

theorem get?_of_without {d p : List String} {t t' : Files} (h : ¬ d <+: p) (h' : ¬ p <+: d)
    (same : t'.put none d = t.put none d) : t'.get? p = t.get? p := by
  rw [← get?_put_apart h h' none t', same, get?_put_apart h h' none t]

end LanguageHost.Files
