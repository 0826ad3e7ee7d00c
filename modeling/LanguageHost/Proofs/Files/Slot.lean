import LanguageHost.Proofs.Files.Way

/-! The operations on one entry of a directory, by the path that names it, and the making of the
directories above. -/
namespace LanguageHost.Files

theorem locate_eq {p : Path} (h : check p = .ok ()) (t : Files) (follow : Bool) :
    t.locate follow p = t.walk follow linkLimit [] p.components := by
  rw [locate, h]
  rfl

theorem locate_root (t : Files) (follow : Bool) : t.locate follow ⟨"/"⟩ = .ok [] := by
  rw [locate_eq (by decide)]
  cbv

theorem check_of_locate {t : Files} {p : Path} {follow : Bool} {ns : List String}
    (h : t.locate follow p = .ok ns) : check p = .ok () := by
  unfold locate at h
  cases hp : check p with
  | ok u => rfl
  | error e =>
      rw [hp] at h
      cases h

theorem absolute_of_ne {h : Host} {p : Path} (ne : p.text ≠ "") : h.absolute p = h.cwd / p.text := by
  rw [Host.absolute, if_neg ne]

/-- A path that leads anywhere leads there from the working directory. -/
theorem locate_of_absolute {t : Files} {h : Host} {p : Path} {follow : Bool} {ns : List String}
    (found : t.locate follow (h.absolute p) = .ok ns) : t.locate follow (h.cwd / p.text) = .ok ns := by
  unfold Host.absolute at found
  split at found
  · next empty =>
      have written := check_of_locate found
      simp [check, empty] at written
  · exact found

/-! What an operation that succeeds has done. -/

section success
variable {t t' : Files} {p q : Path}

theorem write_cases {content : Octets} (h : t.write p content = .ok t') :
    ∃ ns executable, t.locate true p = .ok ns ∧ (∀ es, t.get? ns ≠ some (.dir es)) ∧
      t' = t.put (some (.file content executable)) ns := by
  unfold write at h
  cases hl : t.locate true p with
  | error e => rw [hl] at h; cases h
  | ok ns =>
      rw [hl] at h
      simp only [bind, Except.bind] at h
      split at h
      · cases h
      · next old executable there =>
          cases h
          exact ⟨ns, executable, rfl, by simp [there], rfl⟩
      · next notDir _ =>
          cases h
          exact ⟨ns, false, rfl, notDir, rfl⟩

theorem allowRun_cases (h : t.allowRun p = .ok t') : t' = t ∨
    ∃ ns content executable, t.locate true p = .ok ns ∧ t.get? ns = some (.file content executable) ∧
      t' = t.put (some (.file content true)) ns := by
  unfold allowRun at h
  cases hl : t.locate true p with
  | error e => rw [hl] at h; cases h
  | ok ns =>
      rw [hl] at h
      simp only [bind, Except.bind] at h
      split at h
      · next content executable there =>
          cases h
          exact .inr ⟨ns, content, executable, rfl, there, rfl⟩
      · cases h
        exact .inl rfl
      · cases h

theorem removeFile_cases (h : t.removeFile p = .ok t') :
    ∃ ns, t.locate false p = .ok ns ∧ t' = t.put none ns := by
  unfold removeFile at h
  cases hl : t.locate false p with
  | error e => rw [hl] at h; cases h
  | ok ns =>
      rw [hl] at h
      simp only [bind, Except.bind] at h
      split at h
      · cases h
      · cases h
        exact ⟨ns, rfl, rfl⟩
      · cases h

theorem removeTree_cases (h : t.removeTree p = .ok t') :
    ∃ ns, t.locate false p = .ok ns ∧ t' = t.put none ns := by
  unfold removeTree at h
  cases hl : t.locate false p with
  | error e => rw [hl] at h; cases h
  | ok ns =>
      rw [hl] at h
      simp only [bind, Except.bind] at h
      split at h
      · cases h
      · cases h
        exact ⟨ns, rfl, rfl⟩
      · cases h

theorem makeDir_cases (h : t.makeDir p = .ok t') :
    ∃ ns, t.locate false p = .ok ns ∧ t.get? ns = none ∧ t' = t.put (some empty) ns := by
  unfold makeDir at h
  cases hl : t.locate false p with
  | error e => rw [hl] at h; cases h
  | ok ns =>
      rw [hl] at h
      simp only [bind, Except.bind] at h
      split at h
      · cases h
      · next absent =>
          cases h
          exact ⟨ns, rfl, absent, rfl⟩

/-- A rename moves an entry, unless both paths are for the same place. -/
theorem rename_cases (h : t.rename p q = .ok t') : ∃ source target, t.locate false p = .ok source ∧
    t.locate false q = .ok target ∧ (source = target ∧ t' = t ∨
      ∃ x, t.get? source = some x ∧ t' = (t.put none source).put (some x) target) := by
  unfold rename at h
  cases hp : t.locate false p with
  | error e => rw [hp] at h; cases h
  | ok source =>
      cases hq : t.locate false q with
      | error e => rw [hp, hq] at h; cases h
      | ok target =>
          rw [hp, hq] at h
          simp only [bind, Except.bind] at h
          refine ⟨source, target, rfl, rfl, ?_⟩
          split at h
          · cases h
          · next x there =>
              split at h
              · next same =>
                  cases h
                  exact .inl ⟨same, rfl⟩
              · split at h
                · cases h
                · split at h <;> cases h
                  all_goals exact .inr ⟨x, there, rfl⟩

end success

/-- What stands at a path; a link at its end is not followed. -/
def at? (t : Files) (p : Path) : Option Files :=
  match t.locate false p with
  | .ok place => t.get? place
  | .error _ => none

/-- The path is for the entry `n` of the directory at `base`. -/
structure Slot (fl : Files) (p : Path) (base : List String) (n : String) : Prop where
  written : check p = .ok ()
  short : n.utf8ByteSize ≤ nameLimit
  way : ∃ cs, p.components = cs ++ [.name n] ∧ Way fl cs base

namespace Slot
variable {fl t : Files} {p q : Path} {base : List String} {n m : String} {follow : Bool}

theorem locate_there (slot : Slot fl p base n) (ext : Extends fl t)
    (there : t.get? base = some (.dir es))
    (plain : follow = true → ∀ target, t.get? (base ++ [n]) ≠ some (.link target)) :
    t.locate follow p = .ok (base ++ [n]) := by
  obtain ⟨cs, hcs, way⟩ := slot.way
  obtain ⟨k, walked⟩ := way.walk_dir ext there follow [.name n] (.inl (by simp))
  rw [locate_eq slot.written, hcs, walked]
  exact walk_last slot.short there plain

theorem locate_missing (slot : Slot fl p base n) (ext : Extends fl t) (clear : Clear t base)
    (absent : t.get? base = none) : t.locate follow p = .error .notFound := by
  obtain ⟨cs, hcs, way⟩ := slot.way
  rw [locate_eq slot.written, hcs]
  exact way.walk_missing ext clear absent (by simp)

theorem at?_eq (slot : Slot fl p base n) (ext : Extends fl t) (clear : Clear t base) :
    t.at? p = t.get? (base ++ [n]) := by
  unfold at?
  cases h : t.get? base with
  | none =>
      rw [slot.locate_missing ext clear h, get?_below_absent h (List.prefix_append _ _)]
  | some x =>
      obtain ⟨es, there⟩ := clear.dir h
      rw [slot.locate_there ext there (fun follows => by cases follows)]

/-- What is told of an entry that is no link. -/
theorem kind_eq (slot : Slot fl p base n) (ext : Extends fl t) (clear : Clear t base)
    (plain : ∀ target, t.get? (base ++ [n]) ≠ some (.link target)) :
    Host.kind t p follow = match t.get? (base ++ [n]) with
      | some x => .ok (Host.kindOf x)
      | none => .error .notFound := by
  unfold Host.kind
  cases h : t.get? base with
  | none =>
      rw [slot.locate_missing ext clear h, get?_below_absent h (List.prefix_append _ _)]
      rfl
  | some x =>
      obtain ⟨es, there⟩ := clear.dir h
      rw [slot.locate_there ext there fun _ => plain]
      rfl

/-- What is read of an entry that is no link. -/
theorem read_eq (slot : Slot fl p base n) (ext : Extends fl t) (clear : Clear t base)
    (plain : ∀ target, t.get? (base ++ [n]) ≠ some (.link target)) :
    t.read p = match t.get? (base ++ [n]) with
      | some (.file content _) => .ok content
      | some _ => .error .isDirectory
      | none => .error .notFound := by
  unfold read find
  cases h : t.get? base with
  | none =>
      rw [slot.locate_missing ext clear h, get?_below_absent h (List.prefix_append _ _)]
      rfl
  | some x =>
      obtain ⟨es, there⟩ := clear.dir h
      rw [slot.locate_there ext there fun _ => plain]
      cases entry : t.get? (base ++ [n]) with
      | none => simp [bind, Except.bind, entry]
      | some x => cases x <;> simp [bind, Except.bind, entry]

section there
variable {x : Files} (slot : Slot fl p base n) (ext : Extends fl t)
  (there : t.get? (base ++ [n]) = some x)
include slot ext there

theorem locate_entry : t.locate false p = .ok (base ++ [n]) := by
  obtain ⟨es, parent⟩ := dir_of_get?_concat there
  exact slot.locate_there ext parent fun follows => by cases follows

theorem removeFile_eq (leaf : x.isDirectory = false) :
    t.removeFile p = .ok (t.put none (base ++ [n])) := by
  unfold removeFile
  rw [slot.locate_entry ext there]
  cases x with
  | dir es => cases leaf
  | file content executable => simp [bind, Except.bind, there]
  | link target => simp [bind, Except.bind, there]

theorem removeTree_eq (dir : x.isDirectory = true) :
    t.removeTree p = .ok (t.put none (base ++ [n])) := by
  unfold removeTree
  rw [slot.locate_entry ext there]
  cases x with
  | dir es => simp [bind, Except.bind, there]
  | file content executable => cases dir
  | link target => cases dir

/-- Moving an entry to where nothing is in the same directory. -/
theorem rename_eq (target : Slot fl q base m) (other : n ≠ m)
    (free : t.get? (base ++ [m]) = none) :
    t.rename p q = .ok ((t.put none (base ++ [n])).put (some x) (base ++ [m])) := by
  obtain ⟨es, parent⟩ := dir_of_get?_concat there
  have different : base ++ [n] ≠ base ++ [m] := by simpa using other
  have apart : (base ++ [n]).isPrefixOf (base ++ [m]) = false := by
    rw [Bool.eq_false_iff, Ne, List.isPrefixOf_iff_prefix]
    intro pre
    exact different (pre.eq_of_length (by simp))
  unfold rename
  rw [slot.locate_entry ext there,
    target.locate_there ext parent (fun follows => by cases follows)]
  simp only [bind, Except.bind, there, if_neg different, apart, Bool.false_eq_true, if_false, free]

end there

end Slot

/-! Making the directories of a way. -/

theorem find_dir_of_locate {t : Files} {p : Path} {ns : List String} (h : t.locate true p = .ok ns)
    (there : t.get? ns = some (.dir es)) : t.isDirectoryAt p = true := by
  unfold isDirectoryAt find
  rw [h]
  simp [bind, Except.bind, there]

/-- What one new directory at a time keeps is kept by making all that are missing. -/
theorem makeDirsFrom_keeps (I : Files → Prop) {all : List Path.Component}
    (step : ∀ t t' front c, I t → front ++ [c] <+: all →
      t.isDirectoryAt (Path.ofComponents (front ++ [c])) = false →
      t.makeDir (Path.ofComponents (front ++ [c])) = .ok t' → I t')
    {t t' : Files} {done rest : List Path.Component} (whole : done ++ rest = all) (start : I t)
    (h : t.makeDirsFrom done rest = .ok t') : I t' := by
  induction rest generalizing t done with
  | nil =>
      rw [makeDirsFrom] at h
      cases h
      exact start
  | cons c rest ih =>
      rw [List.append_cons] at whole
      rw [makeDirsFrom] at h
      cases hd : t.isDirectoryAt (Path.ofComponents (done ++ [c])) with
      | true =>
          simp only [hd, if_true] at h
          exact ih whole start h
      | false =>
          cases hm : t.makeDir (Path.ofComponents (done ++ [c])) with
          | error e =>
              simp only [hd, hm] at h
              cases h
          | ok t₁ =>
              simp only [hd, hm] at h
              exact ih whole (step t t₁ done c start ⟨rest, whole⟩ hd hm) h

/-- What leads to a directory finds one on its whole length. -/
theorem Leads.finds_dir {t : Files} {p : Path} {front back : List Path.Component}
    (leads : Leads t linkLimit [] (front ++ back) k place) (there : t.get? place = some (.dir es))
    (written : check p = .ok ()) (hp : p.components = front) : t.isDirectoryAt p = true := by
  obtain ⟨k₁, mid, before, _⟩ := leads.split rfl
  obtain ⟨fs, dir⟩ := before.is_dir (dir_above ⟨_, there⟩ List.nil_prefix)
  have walked := before.walk true [] (.inr rfl)
  refine find_dir_of_locate ?_ dir
  rw [locate_eq written, hp, ← List.append_nil front, walked, Files.walk]

/-- A new directory of a way is at a missing place that its names lead to. -/
theorem Way.makeDir_cases {fl t t' : Files} {p : Path} {place : List String}
    {front : List Path.Component} (way : Way fl cs place) (ext : Extends fl t)
    (plain : ∀ q, q <+: place → q ≠ place → ∀ target, t.get? q ≠ some (.link target))
    (pre : front <+: cs) (hp : p.components = front)
    (missing : t.isDirectoryAt p = false) (h : t.makeDir p = .ok t') :
    ∃ q, q <+: place ∧ t.get? q = none ∧ t' = t.put (some empty) q := by
  obtain ⟨ns, hns, absent, made⟩ := Files.makeDir_cases h
  have written := check_of_locate hns
  rw [locate_eq written, hp] at hns
  cases way with
  | @intro lead k mid names es leads hmid shorts =>
      have leads' := leads.extends ext
      obtain ⟨es', hmid'⟩ := ext.dirs _ _ hmid
      rcases List.prefix_or_prefix_of_prefix pre (List.prefix_append lead _) with inner | outer
      · obtain ⟨back, rfl⟩ := inner
        rw [leads'.finds_dir hmid' written hp] at missing
        cases missing
      · obtain ⟨more, rfl⟩ := outer
        have hmore := List.prefix_iff_eq_take.mp ((List.prefix_append_right_inj lead).mp pre)
        rw [← List.map_take] at hmore
        by_cases nothing : more = []
        · subst nothing
          have whole : Leads t linkLimit [] (lead ++ [] ++ []) k mid := by simpa using leads'
          rw [whole.finds_dir hmid' written hp] at missing
          cases missing
        · have taken := List.take_prefix more.length names
          rw [leads'.walk false more (.inl nothing), hmore] at hns
          have place := walk_names_ok ?_ (fun follows => by cases follows) hns
          · refine ⟨ns, ?_, absent, made⟩
            rw [place]
            exact (List.prefix_append_right_inj mid).mpr taken
          · intro q hq strict
            refine plain _ ((List.prefix_append_right_inj mid).mpr (hq.trans taken)) ?_
            intro same
            have all : q = names := List.append_cancel_left same
            exact strict (hq.eq_of_length_le (all ▸ taken.length_le))

theorem makeDirsFrom_append {t t' : Files} {done front back : List Path.Component}
    (h : t.makeDirsFrom done (front ++ back) = .ok t') :
    ∃ t₁, t.makeDirsFrom done front = .ok t₁ ∧ t₁.makeDirsFrom (done ++ front) back = .ok t' := by
  induction front generalizing t done with
  | nil => exact ⟨t, rfl, by simpa using h⟩
  | cons c front ih =>
      rw [List.cons_append, makeDirsFrom] at h
      rw [makeDirsFrom, List.append_cons done c front]
      cases hd : t.isDirectoryAt (Path.ofComponents (done ++ [c])) with
      | true =>
          simp only [hd, if_true] at h ⊢
          exact ih h
      | false =>
          cases hm : t.makeDir (Path.ofComponents (done ++ [c])) with
          | error e =>
              simp only [hd, hm] at h
              cases h
          | ok t₁ =>
              simp only [hd, hm] at h ⊢
              exact ih h

/-- The last directory of a path was there, or is the last one made. -/
theorem makeDirsFrom_last {t t' : Files} {done : List Path.Component} {c : Path.Component}
    (h : t.makeDirsFrom done [c] = .ok t') :
    (t' = t ∧ t.isDirectoryAt (Path.ofComponents (done ++ [c])) = true) ∨
      t.makeDir (Path.ofComponents (done ++ [c])) = .ok t' := by
  rw [makeDirsFrom] at h
  cases hd : t.isDirectoryAt (Path.ofComponents (done ++ [c])) with
  | true =>
      simp only [hd, if_true, makeDirsFrom] at h
      cases h
      exact .inl ⟨rfl, rfl⟩
  | false =>
      cases hm : t.makeDir (Path.ofComponents (done ++ [c])) with
      | error e =>
          simp only [hd, hm] at h
          cases h
      | ok t₁ =>
          simp only [hd, hm, makeDirsFrom] at h
          cases h
          exact .inr rfl

section step
variable {t : Files} {done rest : List Path.Component} {c : Path.Component} {p : Path} {ns : List String}
  (named : Path.ofComponents (done ++ [c]) = p) (found : ∀ follow, t.locate follow p = .ok ns)
include named found

theorem makeDirsFrom_there (there : t.get? ns = some (.dir es)) :
    t.makeDirsFrom done (c :: rest) = t.makeDirsFrom (done ++ [c]) rest := by
  rw [makeDirsFrom, named, find_dir_of_locate (found true) there]
  rfl

theorem makeDirsFrom_new (absent : t.get? ns = none) :
    t.makeDirsFrom done (c :: rest) = (t.put (some empty) ns).makeDirsFrom (done ++ [c]) rest := by
  have missing : t.isDirectoryAt p = false := by
    rw [isDirectoryAt, find, found]
    simp [bind, Except.bind, absent]
  have made : t.makeDir p = .ok (t.put (some empty) ns) := by
    rw [makeDir, found]
    simp [bind, Except.bind, absent]
  rw [makeDirsFrom, named, missing, made]
  rfl

end step

/-- The beginning of an absolute path's components, written as a path, has these components. -/
theorem components_of_beginning {p : Path} {front : List Path.Component} {c : Path.Component}
    (abs : p.isAbsolute = true) (pre : front ++ [c] <+: p.components) :
    (Path.ofComponents (front ++ [c])).components = front ++ [c] := by
  rw [Path.components_absolute abs] at pre
  cases front with
  | nil =>
      obtain ⟨rfl, _⟩ := List.cons_prefix_cons.mp pre
      rfl
  | cons d front =>
      obtain ⟨rfl, inner⟩ := List.cons_prefix_cons.mp pre
      refine Path.components_ofComponents fun e he => ?_
      exact Path.ordinary_of_mem_parts (inner.subset he)

theorem makeDirsFrom_of_makeDirs {t t' : Files} {p : Path} (h : t.makeDirs p = .ok t') :
    t.makeDirsFrom [] p.components = .ok t' := by
  unfold makeDirs at h
  split at h
  · cases hc : check p with
    | ok u => rwa [hc] at h
    | error e => rw [hc] at h; cases h
  · exact h

section makeDirs
variable {fl : Files} {p : Path} {place : List String} (I : Files → Prop)
  (way : Way fl p.components place) (abs : p.isAbsolute = true)
  (good : ∀ t, I t → Extends fl t ∧
    ∀ q, q <+: place → q ≠ place → ∀ target, t.get? q ≠ some (.link target))
  (new : ∀ t q, I t → q <+: place → t.get? q = none → I (t.put (some empty) q))
include way abs good new

/-- What one new directory at a time keeps is kept by making the first directories of a path. -/
theorem Way.makeDirsFrom_keeps {t t' : Files} {front back : List Path.Component}
    (whole : front ++ back = p.components) (start : I t) (h : t.makeDirsFrom [] front = .ok t') :
    I t' := by
  refine Files.makeDirsFrom_keeps I ?_ (List.nil_append _) start h
  intro t t' init c ht pre missing hm
  have pre' : init ++ [c] <+: p.components := whole ▸ pre.trans (List.prefix_append _ _)
  obtain ⟨ext, plain⟩ := good t ht
  obtain ⟨q, hq, absent, rfl⟩ :=
    way.makeDir_cases ext plain pre' (components_of_beginning abs pre') missing hm
  exact new t q ht hq absent

theorem Way.makeDirs_keeps {t t' : Files} (start : I t) (h : t.makeDirs p = .ok t') : I t' :=
  way.makeDirsFrom_keeps I abs good new (List.append_nil _) start (makeDirsFrom_of_makeDirs h)

end makeDirs

theorem locate_of_isDirectoryAt {t : Files} {p : Path} (h : t.isDirectoryAt p = true) :
    ∃ ns es, t.locate true p = .ok ns ∧ t.get? ns = some (.dir es) := by
  unfold isDirectoryAt find at h
  cases hl : t.locate true p with
  | error e =>
      rw [hl] at h
      cases h
  | ok ns =>
      rw [hl] at h
      simp only [bind, Except.bind] at h
      cases there : t.get? ns with
      | none => simp [there] at h
      | some x =>
          cases x with
          | dir es => exact ⟨ns, es, rfl, there⟩
          | file content executable => simp [there] at h
          | link target => simp [there] at h

/-- A path that leads anywhere at all leads to the place of its slot, in a directory that is there. -/
theorem Slot.place_of_locate {fl t : Files} {p : Path} {ns : List String} {follow : Bool}
    (slot : Slot fl p base n) (ext : Extends fl t) (clear : Clear t base)
    (plain : ∀ target, t.get? (base ++ [n]) ≠ some (.link target))
    (found : t.locate follow p = .ok ns) : ns = base ++ [n] ∧ ∃ es, t.get? base = some (.dir es) := by
  cases hbase : t.get? base with
  | none =>
      rw [slot.locate_missing ext clear hbase] at found
      cases found
  | some x =>
      obtain ⟨es, there⟩ := clear.dir hbase
      rw [slot.locate_there ext there fun _ => plain] at found
      cases found
      exact ⟨rfl, es, hbase ▸ there⟩

/-- Once a directory has been made it is there. -/
theorem Slot.makeDirs_dir {fl t t' : Files} {p : Path} {base : List String} {n : String}
    (I : Files → Prop) (slot : Slot fl p base n) (abs : p.isAbsolute = true)
    (good : ∀ t, I t → Extends fl t ∧ Clear t base ∧
      ∀ target, t.get? (base ++ [n]) ≠ some (.link target))
    (new : ∀ t q, I t → q <+: base ++ [n] → t.get? q = none → I (t.put (some empty) q))
    (start : I t) (h : t.makeDirs p = .ok t') : ∃ es, t'.get? (base ++ [n]) = some (.dir es) := by
  obtain ⟨cs, hcs, way⟩ := slot.way
  have whole : Way fl p.components (base ++ [n]) := hcs ▸ way.child slot.short
  have good' : ∀ t, I t → Extends fl t ∧ ∀ q, q <+: base ++ [n] → q ≠ base ++ [n] →
      ∀ target, t.get? q ≠ some (.link target) := by
    intro t ht
    refine ⟨(good t ht).1, fun q pre strict => ?_⟩
    rcases List.prefix_concat_iff.mp pre with same | inner
    · exact absurd same strict
    · exact (good t ht).2.1.unlinked q inner
  have made := makeDirsFrom_of_makeDirs h
  rw [hcs] at made
  obtain ⟨t₁, front, last⟩ := makeDirsFrom_append made
  have ht₁ := whole.makeDirsFrom_keeps I abs good' new hcs.symm start front
  obtain ⟨ext, clear, plain⟩ := good t₁ ht₁
  have pre : cs ++ [Path.Component.name n] <+: p.components := hcs ▸ List.prefix_refl _
  have written := components_of_beginning abs pre
  rw [List.nil_append] at last
  rcases makeDirsFrom_last last with ⟨rfl, there⟩ | new
  · obtain ⟨ns, es, found, dir⟩ := locate_of_isDirectoryAt there
    have slot' : Slot fl _ base n := ⟨check_of_locate found, slot.short, cs, written, way⟩
    obtain ⟨rfl, _⟩ := slot'.place_of_locate ext clear plain found
    exact ⟨es, dir⟩
  · obtain ⟨ns, found, _, rfl⟩ := makeDir_cases new
    have slot' : Slot fl _ base n := ⟨check_of_locate found, slot.short, cs, written, way⟩
    obtain ⟨rfl, es, parent⟩ := slot'.place_of_locate ext clear plain found
    exact ⟨[], get?_put_some parent empty n⟩

end LanguageHost.Files
