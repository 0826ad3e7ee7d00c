import LanguageHost.Machine.Host
import LanguageHost.Proofs.Files.Tree
import LanguageHost.Proofs.Path.Components

/-! Which places paths lead to, while other places of the tree change. A way has a front, whose
directories and links are there for good, and behind it plain names, which may be missing yet. -/
namespace LanguageHost.Files

/-- The components lead from the directory `done` to the directory `place`, all of them there already. Of
`k` links that may be followed `k'` are left. -/
inductive Leads (t : Files) : Nat → List String → List Path.Component → Nat → List String → Prop
  | arrived {k place} : Leads t k place [] k place
  | root {k done rest k' place} : Leads t k [] rest k' place → Leads t k done (.root :: rest) k' place
  | here {k done rest k' place} : Leads t k done rest k' place → Leads t k done (.here :: rest) k' place
  | parent {k done rest k' place} : Leads t k done.dropLast rest k' place →
      Leads t k done (.parent :: rest) k' place
  | dir {k done s rest k' place es} : s.utf8ByteSize ≤ nameLimit →
      t.get? (done ++ [s]) = some (.dir es) →
      Leads t k (done ++ [s]) rest k' place → Leads t k done (.name s :: rest) k' place
  | link {k done s rest k' place target} : s.utf8ByteSize ≤ nameLimit →
      t.get? (done ++ [s]) = some (.link target) →
      Leads t k done (target.components ++ rest) k' place →
      Leads t (k + 1) done (.name s :: rest) k' place

/-- All directories and links of the first tree are in the second one. -/
structure Extends (fl t : Files) : Prop where
  dirs : ∀ p es, fl.get? p = some (.dir es) → ∃ es', t.get? p = some (.dir es')
  links : ∀ p target, fl.get? p = some (.link target) → t.get? p = some (.link target)

theorem Leads.extends {fl t : Files} (h : Leads fl k done cs k' place) (ext : Extends fl t) :
    Leads t k done cs k' place := by
  induction h with
  | arrived => exact .arrived
  | root _ ih => exact .root ih
  | here _ ih => exact .here ih
  | parent _ ih => exact .parent ih
  | dir short there _ ih =>
      obtain ⟨es', there'⟩ := ext.dirs _ _ there
      exact .dir short there' ih
  | link short there _ ih => exact .link short (ext.links _ _ there) ih

theorem Leads.split {t : Files} {cs : List Path.Component} (h : Leads t k done cs k' place)
    {front back : List Path.Component} (eq : cs = front ++ back) :
    ∃ k₁ mid, Leads t k done front k₁ mid ∧ Leads t k₁ mid back k' place := by
  induction h generalizing front with
  | arrived =>
      obtain ⟨rfl, rfl⟩ := List.append_eq_nil_iff.mp eq.symm
      exact ⟨_, _, .arrived, .arrived⟩
  | root rest ih =>
      rcases List.cons_eq_append_iff.mp eq with ⟨rfl, rfl⟩ | ⟨front, rfl, tail⟩
      · exact ⟨_, _, .arrived, .root rest⟩
      · obtain ⟨k₁, mid, before, after⟩ := ih tail
        exact ⟨k₁, mid, .root before, after⟩
  | here rest ih =>
      rcases List.cons_eq_append_iff.mp eq with ⟨rfl, rfl⟩ | ⟨front, rfl, tail⟩
      · exact ⟨_, _, .arrived, .here rest⟩
      · obtain ⟨k₁, mid, before, after⟩ := ih tail
        exact ⟨k₁, mid, .here before, after⟩
  | parent rest ih =>
      rcases List.cons_eq_append_iff.mp eq with ⟨rfl, rfl⟩ | ⟨front, rfl, tail⟩
      · exact ⟨_, _, .arrived, .parent rest⟩
      · obtain ⟨k₁, mid, before, after⟩ := ih tail
        exact ⟨k₁, mid, .parent before, after⟩
  | dir short there rest ih =>
      rcases List.cons_eq_append_iff.mp eq with ⟨rfl, rfl⟩ | ⟨front, rfl, tail⟩
      · exact ⟨_, _, .arrived, .dir short there rest⟩
      · obtain ⟨k₁, mid, before, after⟩ := ih tail
        exact ⟨k₁, mid, .dir short there before, after⟩
  | link short there rest ih =>
      rcases List.cons_eq_append_iff.mp eq with ⟨rfl, rfl⟩ | ⟨front, rfl, tail⟩
      · exact ⟨_, _, .arrived, .link short there rest⟩
      · obtain ⟨k₁, mid, before, after⟩ := ih (by rw [tail, List.append_assoc])
        exact ⟨k₁, mid, .link short there before, after⟩

theorem dir_above {t : Files} {p q : List String} (h : ∃ es, t.get? q = some (.dir es))
    (pre : p <+: q) : ∃ es, t.get? p = some (.dir es) := by
  obtain ⟨es, hes⟩ := h
  by_cases same : p = q
  · exact ⟨es, same ▸ hes⟩
  · exact dir_strictly_above hes pre same

/-- What is led to is a directory when the start is one. -/
theorem Leads.is_dir {t : Files} (h : Leads t k done cs k' place)
    (start : ∃ es, t.get? done = some (.dir es)) : ∃ es, t.get? place = some (.dir es) := by
  induction h with
  | arrived => exact start
  | root _ ih => exact ih (dir_above start List.nil_prefix)
  | here _ ih => exact ih start
  | parent _ ih => exact ih (dir_above start (List.dropLast_prefix _))
  | dir _ there _ ih => exact ih ⟨_, there⟩
  | link _ _ _ ih => exact ih start

/-! One step of a walk by a name. -/

section step
variable {t : Files} {follow : Bool} {k : Nat} {done : List String} {s : String}
  {rest : List Path.Component}

theorem walk_dir (short : s.utf8ByteSize ≤ nameLimit) (there : t.get? (done ++ [s]) = some (.dir es)) :
    t.walk follow k done (.name s :: rest) = t.walk follow k (done ++ [s]) rest := by
  obtain ⟨fs, parent⟩ := dir_of_get?_concat there
  rw [get?_concat, parent, Option.bind_some, entries] at there
  rw [walk]
  simp only [parent, if_neg (Nat.not_lt.mpr short), there]

theorem walk_link (short : s.utf8ByteSize ≤ nameLimit)
    (there : t.get? (done ++ [s]) = some (.link target)) (on : rest ≠ [] ∨ follow = true) :
    t.walk follow (k + 1) done (.name s :: rest) =
      t.walk follow k done (target.components ++ rest) := by
  obtain ⟨fs, parent⟩ := dir_of_get?_concat there
  rw [get?_concat, parent, Option.bind_some, entries] at there
  have goes : ¬(rest.isEmpty = true ∧ (!follow) = true) := by
    rintro ⟨last, stays⟩
    rcases on with more | follows
    · exact more (List.isEmpty_iff.mp last)
    · rw [follows] at stays
      cases stays
  rw [walk]
  simp only [parent, if_neg (Nat.not_lt.mpr short), there, if_neg goes]

theorem walk_last (short : s.utf8ByteSize ≤ nameLimit) (parent : t.get? done = some (.dir es))
    (plain : follow = true → ∀ target, t.get? (done ++ [s]) ≠ some (.link target)) :
    t.walk follow k done [.name s] = .ok (done ++ [s]) := by
  rw [walk]
  simp only [parent, if_neg (Nat.not_lt.mpr short)]
  rw [get?_concat, parent, Option.bind_some, entries] at plain
  cases there : Table.get? s es with
  | none => simp
  | some x =>
      cases x with
      | file content executable => simp
      | dir fs => simp [walk]
      | link target =>
          have stays : follow = false := by
            by_contra follows
            exact plain (by simpa using follows) target there
          simp [stays]

/-- Nothing is ever found by a name that is too long. -/
theorem walk_long (t : Files) (follow : Bool) (k : Nat) (done : List String)
    (rest : List Path.Component) (long : nameLimit < s.utf8ByteSize) :
    ∃ e, t.walk follow k done (.name s :: rest) = .error e := by
  rw [walk]
  split
  · exact ⟨_, if_pos long⟩
  · exact ⟨_, rfl⟩
  · exact ⟨_, rfl⟩

/-- A walk by a name that arrives somewhere has found a directory, a link to follow, or the end. -/
theorem walk_name_cases {ns : List String} (h : t.walk follow k done (.name s :: rest) = .ok ns) :
    (∃ es, t.get? (done ++ [s]) = some (.dir es) ∧ t.walk follow k (done ++ [s]) rest = .ok ns) ∨
    (∃ target, t.get? (done ++ [s]) = some (.link target) ∧ (rest ≠ [] ∨ follow = true)) ∨
    (rest = [] ∧ ns = done ++ [s]) := by
  rw [walk] at h
  split at h
  · next es parent =>
      rw [get?_concat, parent, Option.bind_some, entries]
      split at h
      · cases h
      · split at h
        · split at h
          · next last =>
              cases h
              exact .inr (.inr ⟨List.isEmpty_iff.mp last, rfl⟩)
          · cases h
        · next target there =>
            split at h
            · next last =>
                cases h
                exact .inr (.inr ⟨List.isEmpty_iff.mp last.1, rfl⟩)
            · next goes =>
                refine .inr (.inl ⟨target, there, ?_⟩)
                simp only [List.isEmpty_iff, Bool.not_eq_true', not_and_or] at goes
                simpa using goes
        · split at h
          · next last =>
              cases h
              exact .inr (.inr ⟨List.isEmpty_iff.mp last, rfl⟩)
          · cases h
        · next es there => exact .inl ⟨es, there, h⟩
  · cases h
  · cases h

end step

/-- The walk is along what leads. -/
theorem Leads.walk {t : Files} (h : Leads t k done cs k' place) (follow : Bool)
    (rest : List Path.Component) (on : rest ≠ [] ∨ follow = true) :
    t.walk follow k done (cs ++ rest) = t.walk follow k' place rest := by
  induction h with
  | arrived => rfl
  | root _ ih => rw [List.cons_append, Files.walk, ih]
  | here _ ih => rw [List.cons_append, Files.walk, ih]
  | parent _ ih => rw [List.cons_append, Files.walk, ih]
  | dir short there _ ih => rw [List.cons_append, walk_dir short there, ih]
  | link short there _ ih =>
      rw [List.cons_append, walk_link short there
        (on.imp_left fun ne => List.append_ne_nil_of_right_ne_nil _ ne), ← List.append_assoc, ih]

/-! Walks by names alone. -/

/-- Every place on the way is a directory or missing yet. -/
def Clear (t : Files) (place : List String) : Prop :=
  ∀ p, p <+: place → ∀ x, t.get? p = some x → x.isDirectory = true

/-- No place on the way is a link. -/
def Unlinked (t : Files) (place : List String) : Prop :=
  ∀ p, p <+: place → ∀ target, t.get? p ≠ some (.link target)

theorem Clear.unlinked {t : Files} (h : Clear t place) : Unlinked t place := by
  intro p pre target there
  cases h p pre _ there

theorem Clear.dir {t : Files} (h : Clear t place) (there : t.get? place = some x) :
    ∃ es, t.get? place = some (.dir es) := by
  cases x with
  | dir es => exact ⟨es, there⟩
  | file content executable => cases h place (List.prefix_refl _) _ there
  | link target => cases h place (List.prefix_refl _) _ there

section names
variable {t : Files} {follow : Bool} {k : Nat} {mid names : List String}

theorem walk_names_dir (short : ∀ s ∈ names, s.utf8ByteSize ≤ nameLimit)
    (there : ∃ es, t.get? (mid ++ names) = some (.dir es)) (rest : List Path.Component) :
    t.walk follow k mid (names.map .name ++ rest) = t.walk follow k (mid ++ names) rest := by
  induction names generalizing mid with
  | nil => simp
  | cons s names ih =>
      rw [List.append_cons] at there ⊢
      obtain ⟨es, first⟩ := dir_above there (List.prefix_append _ names)
      rw [List.map_cons, List.cons_append, walk_dir (short s (by simp)) first]
      exact ih (fun r hr => short r (by simp [hr])) there

theorem walk_names_missing (short : ∀ s ∈ names, s.utf8ByteSize ≤ nameLimit)
    (clear : Clear t (mid ++ names)) (start : ∃ es, t.get? mid = some (.dir es))
    (absent : t.get? (mid ++ names) = none) {rest : List Path.Component} (more : rest ≠ []) :
    t.walk follow k mid (names.map .name ++ rest) = .error .notFound := by
  induction names generalizing mid with
  | nil =>
      obtain ⟨es, hes⟩ := start
      simp [hes] at absent
  | cons s names ih =>
      have longer : names.map Path.Component.name ++ rest ≠ [] :=
        List.append_ne_nil_of_right_ne_nil _ more
      rw [List.append_cons] at clear absent
      rw [List.map_cons, List.cons_append]
      cases first : t.get? (mid ++ [s]) with
      | none =>
          obtain ⟨es, hes⟩ := start
          rw [get?_concat, hes, Option.bind_some, entries] at first
          rw [walk]
          simp [hes, Nat.not_lt.mpr (short s (by simp)), first, List.isEmpty_iff, more]
      | some x =>
          have dir := clear _ (List.prefix_append _ names) _ first
          cases x with
          | dir es =>
              rw [walk_dir (short s (by simp)) first]
              exact ih (fun r hr => short r (by simp [hr])) clear ⟨es, first⟩ absent
          | file content executable => cases dir
          | link target => cases dir

/-- A walk by names that runs into no link ends where the names say, if anywhere. -/
theorem walk_names_ok {ns : List String}
    (plain : ∀ p, p <+: names → p ≠ names → ∀ target, t.get? (mid ++ p) ≠ some (.link target))
    (last : follow = true → ∀ target, t.get? (mid ++ names) ≠ some (.link target))
    (h : t.walk follow k mid (names.map .name) = .ok ns) : ns = mid ++ names := by
  induction names generalizing mid with
  | nil =>
      rw [List.map_nil, walk] at h
      cases h
      simp
  | cons s names ih =>
      rw [List.append_cons]
      rcases walk_name_cases h with ⟨es, _, on⟩ | ⟨target, there, on⟩ | ⟨done, rfl⟩
      · refine ih ?_ ?_ on
        · intro p pre strict target
          have deeper := plain (s :: p) (List.cons_prefix_cons.mpr ⟨rfl, pre⟩) (by simpa using strict)
          rw [List.append_cons] at deeper
          exact deeper target
        · intro follows
          rw [← List.append_cons]
          exact last follows
      · exfalso
        by_cases more : names = []
        · subst more
          exact last (by simpa using on) target there
        · have first := plain [s] (List.cons_prefix_cons.mpr ⟨rfl, List.nil_prefix⟩)
            (by simpa using Ne.symm more)
          exact first target there
      · rw [List.map_eq_nil_iff.mp done, List.append_nil]

end names

/-! Whole paths. -/

/-- The components are for the place: their front leads to a directory of `fl`, and only names follow. -/
inductive Way (fl : Files) : List Path.Component → List String → Prop
  | intro {front k mid names es} : Leads fl linkLimit [] front k mid → fl.get? mid = some (.dir es) →
      (∀ s ∈ names, s.utf8ByteSize ≤ nameLimit) → Way fl (front ++ names.map .name) (mid ++ names)

theorem Way.child {fl : Files} (way : Way fl cs place) (short : s.utf8ByteSize ≤ nameLimit) :
    Way fl (cs ++ [.name s]) (place ++ [s]) := by
  obtain ⟨leads, hmid, shorts⟩ := way
  rw [List.append_assoc, List.append_assoc]
  change Way fl (_ ++ (List.map _ _ ++ List.map Path.Component.name [s])) _
  rw [← List.map_append]
  refine .intro leads hmid ?_
  simpa [or_imp, forall_and] using ⟨shorts, short⟩

section way
variable {fl t : Files} {cs rest : List Path.Component} {place : List String} {follow : Bool}

theorem Way.walk_dir (way : Way fl cs place) (ext : Extends fl t)
    (there : t.get? place = some (.dir es)) (follow : Bool) (rest : List Path.Component)
    (on : rest ≠ [] ∨ follow = true) :
    ∃ k, t.walk follow linkLimit [] (cs ++ rest) = t.walk follow k place rest := by
  cases way with
  | @intro front k mid names es leads hmid shorts =>
      have on' : names.map Path.Component.name ++ rest ≠ [] ∨ follow = true :=
        on.imp_left fun ne => List.append_ne_nil_of_right_ne_nil _ ne
      rw [List.append_assoc, (leads.extends ext).walk follow _ on',
        walk_names_dir shorts ⟨_, there⟩]
      exact ⟨k, rfl⟩

theorem Way.walk_missing (way : Way fl cs place) (ext : Extends fl t) (clear : Clear t place)
    (absent : t.get? place = none) (more : rest ≠ []) :
    t.walk follow linkLimit [] (cs ++ rest) = .error .notFound := by
  cases way with
  | @intro front k mid names es leads hmid shorts =>
      have longer := List.append_ne_nil_of_right_ne_nil (names.map Path.Component.name) more
      rw [List.append_assoc, (leads.extends ext).walk follow _ (.inl longer)]
      exact walk_names_missing shorts clear (ext.dirs _ _ hmid) absent more

/-- A walk along a way through no links ends at its place, if anywhere. -/
theorem Way.walk_ok {ns : List String} (way : Way fl cs place) (ext : Extends fl t) (s : String)
    (plain : Unlinked t place)
    (last : follow = true → ∀ target, t.get? (place ++ [s]) ≠ some (.link target))
    (h : t.walk follow linkLimit [] (cs ++ [.name s]) = .ok ns) : ns = place ++ [s] := by
  cases way with
  | @intro front k mid names es leads hmid shorts =>
      rw [List.append_assoc, (leads.extends ext).walk follow _ (.inl (by simp))] at h
      have h' : t.walk follow k mid ((names ++ [s]).map .name) = .ok ns := by
        rw [List.map_append]
        exact h
      rw [List.append_assoc] at last ⊢
      refine walk_names_ok ?_ last h'
      intro p pre strict
      rcases List.prefix_concat_iff.mp pre with same | inner
      · exact absurd same strict
      · exact plain _ ((List.prefix_append_right_inj mid).mpr inner)

end way

end LanguageHost.Files
