import LanguageHost.Proofs.Files.Clean
import LanguageHost.Proofs.Program.Runs

/-! Where walks end, and what writing one file changes for them: directories and links stay as they are, so
every walk to the file ends there as before. A file below a directory stands there under its name, or a link
does that leads to it. -/
namespace LanguageHost.Files

/-- A walk to its end: along directories and links, and by the last name to what is no directory. -/
inductive Ends (t : Files) (follow : Bool) :
    Nat → List String → List Path.Component → List String → Prop
  | arrived {k place} : Ends t follow k place [] place
  | root {k done rest place} : Ends t follow k [] rest place → Ends t follow k done (.root :: rest) place
  | here {k done rest place} : Ends t follow k done rest place → Ends t follow k done (.here :: rest) place
  | parent {k done rest place} : Ends t follow k done.dropLast rest place →
      Ends t follow k done (.parent :: rest) place
  | dir {k done s rest place es} : s.utf8ByteSize ≤ nameLimit → t.get? (done ++ [s]) = some (.dir es) →
      Ends t follow k (done ++ [s]) rest place → Ends t follow k done (.name s :: rest) place
  | link {k done s rest place target} : s.utf8ByteSize ≤ nameLimit →
      t.get? (done ++ [s]) = some (.link target) → rest ≠ [] ∨ follow = true →
      Ends t follow k done (target.components ++ rest) place →
      Ends t follow (k + 1) done (.name s :: rest) place
  | last {k done s es} : s.utf8ByteSize ≤ nameLimit → t.get? done = some (.dir es) →
      (∀ fs, t.get? (done ++ [s]) ≠ some (.dir fs)) →
      (follow = true → ∀ target, t.get? (done ++ [s]) ≠ some (.link target)) →
      Ends t follow k done [.name s] (done ++ [s])

variable {t t' : Files} {follow : Bool} {k : Nat} {done place : List String} {cs front : List Path.Component}
  {s : String} {p : Path}

theorem ends_of_walk (h : t.walk follow k done cs = .ok place) : Ends t follow k done cs place := by
  have below {done : List String} {s : String} {es : List (String × Files)}
      (parent : t.get? done = some (.dir es)) : t.get? (done ++ [s]) = Table.get? s es := by
    rw [get?_concat, parent, Option.bind_some, entries]
  -- The cases in which the walk goes on, or ends; behind them those in which it fails.
  induction k, done, cs using walk.induct t follow with
  | case1 k done =>
      rw [walk] at h
      cases h
      exact .arrived
  | case2 k done rest ih =>
      rw [walk] at h
      exact .root (ih h)
  | case3 k done rest ih =>
      rw [walk] at h
      exact .here (ih h)
  | case4 k done rest ih =>
      rw [walk] at h
      exact .parent (ih h)
  | case6 k done s rest es parent short absent last =>
      obtain rfl := List.isEmpty_iff.mp last
      rw [walk] at h
      simp only [parent, if_neg short, absent, List.isEmpty_nil, if_true] at h
      cases h
      exact .last (Nat.le_of_not_lt short) parent (by simp [below parent, absent])
        (by simp [below parent, absent])
  | case8 k done s rest es parent short target there stays =>
      obtain rfl := List.isEmpty_iff.mp stays.1
      rw [walk] at h
      simp only [parent, if_neg short, there, if_pos stays] at h
      cases h
      refine .last (Nat.le_of_not_lt short) parent (by simp [below parent, there]) fun follows => ?_
      simp [follows] at stays
  | case10 done s rest es parent short target there goes k ih =>
      rw [walk] at h
      simp only [parent, if_neg short, there, if_neg goes] at h
      refine .link (Nat.le_of_not_lt short) ((below parent).trans there) ?_ (ih h)
      simpa [or_iff_not_imp_left] using goes
  | case11 k done s rest es parent short content executable there last =>
      obtain rfl := List.isEmpty_iff.mp last
      rw [walk] at h
      simp only [parent, if_neg short, there, List.isEmpty_nil, if_true] at h
      cases h
      exact .last (Nat.le_of_not_lt short) parent (by simp [below parent, there])
        (by simp [below parent, there])
  | case13 k done s rest es parent short fs there ih =>
      rw [walk] at h
      simp only [parent, if_neg short, there] at h
      exact .dir (Nat.le_of_not_lt short) ((below parent).trans there) (ih h)
  | case5 k done s rest es parent long =>
      rw [walk] at h
      simp only [parent, if_pos long, reduceCtorEq] at h
  | case7 k done s rest es parent short absent more =>
      rw [walk] at h
      simp only [parent, if_neg short, absent, if_neg more, reduceCtorEq] at h
  | case9 done s rest es parent short target there goes =>
      rw [walk] at h
      simp only [parent, if_neg short, there, if_neg goes, reduceCtorEq] at h
  | case12 k done s rest es parent short content executable there more =>
      rw [walk] at h
      simp only [parent, if_neg short, there, if_neg more, reduceCtorEq] at h
  | case14 k done s rest x other there =>
      rw [walk] at h
      cases x with
      | dir es => exact (other es rfl).elim
      | file content executable => simp only [there, reduceCtorEq] at h
      | link target => simp only [there, reduceCtorEq] at h
  | case15 k done s rest absent =>
      rw [walk] at h
      simp only [absent, reduceCtorEq] at h

theorem Ends.walk (h : Ends t follow k done cs place) : t.walk follow k done cs = .ok place := by
  induction h with
  | arrived => rw [Files.walk]
  | root _ ih => rw [Files.walk, ih]
  | here _ ih => rw [Files.walk, ih]
  | parent _ ih => rw [Files.walk, ih]
  | dir short there _ ih => rw [walk_dir short there, ih]
  | link short there on _ ih => rw [walk_link short there on, ih]
  | last short parent _ plain => exact walk_last short parent plain

/-- A walk that ends in a name leads to a directory before. -/
theorem Ends.leads (h : Ends t follow k done cs place) (named : cs = front ++ [.name s]) :
    ∃ k' base es, Leads t k done front k' base ∧ t.get? base = some (.dir es) ∧ s.utf8ByteSize ≤ nameLimit ∧
      Ends t follow k' base [.name s] place := by
  induction h generalizing front with
  | arrived => simp at named
  | root rest ih =>
      obtain ⟨rfl, other⟩ | ⟨front, rfl, behind⟩ := List.cons_eq_append_iff.mp named
      · cases other
      · obtain ⟨k', base, es, leads, on⟩ := ih behind
        exact ⟨k', base, es, .root leads, on⟩
  | here rest ih =>
      obtain ⟨rfl, other⟩ | ⟨front, rfl, behind⟩ := List.cons_eq_append_iff.mp named
      · cases other
      · obtain ⟨k', base, es, leads, on⟩ := ih behind
        exact ⟨k', base, es, .here leads, on⟩
  | parent rest ih =>
      obtain ⟨rfl, other⟩ | ⟨front, rfl, behind⟩ := List.cons_eq_append_iff.mp named
      · cases other
      · obtain ⟨k', base, es, leads, on⟩ := ih behind
        exact ⟨k', base, es, .parent leads, on⟩
  | dir short there rest ih =>
      obtain ⟨rfl, last⟩ | ⟨front, rfl, behind⟩ := List.cons_eq_append_iff.mp named
      · cases last
        obtain ⟨es, parent⟩ := dir_of_get?_concat there
        exact ⟨_, _, es, .arrived, parent, short, .dir short there rest⟩
      · obtain ⟨k', base, es, leads, on⟩ := ih behind
        exact ⟨k', base, es, .dir short there leads, on⟩
  | link short there on rest ih =>
      obtain ⟨rfl, last⟩ | ⟨front, rfl, behind⟩ := List.cons_eq_append_iff.mp named
      · cases last
        obtain ⟨es, parent⟩ := dir_of_get?_concat there
        exact ⟨_, _, es, .arrived, parent, short, .link short there on rest⟩
      · obtain ⟨k', base, es, leads, on⟩ := ih (by rw [behind, List.append_assoc])
        exact ⟨k', base, es, .link short there leads, on⟩
  | last short parent other plain =>
      obtain ⟨rfl, last⟩ | ⟨front, rfl, behind⟩ := List.cons_eq_append_iff.mp named
      · cases last
        exact ⟨_, _, _, .arrived, parent, short, .last short parent other plain⟩
      · simp at behind

/-- Where a walk that follows links ends is a directory, or the place of a file. -/
theorem Ends.leaf (h : Ends t true k done cs place) (start : ∃ es, t.get? done = some (.dir es)) :
    (∃ es, t.get? place = some (.dir es)) ∨ ∃ base s es, place = base ++ [s] ∧
      t.get? base = some (.dir es) ∧ ∀ target, t.get? place ≠ some (.link target) := by
  induction h with
  | arrived => exact .inl start
  | root _ ih => exact ih (dir_above start List.nil_prefix)
  | here _ ih => exact ih start
  | parent _ ih => exact ih (dir_above start (List.dropLast_prefix _))
  | dir _ there _ ih => exact ih ⟨_, there⟩
  | link _ _ _ _ ih => exact ih start
  | last _ parent _ plain => exact .inr ⟨_, _, _, rfl, parent, plain rfl⟩

/-- A walk to a file ends there in every tree with these directories and links. -/
theorem Ends.extends (h : Ends t follow k done cs place) (ext : Extends t t')
    (there : t'.get? place = some (.file content executable)) : Ends t' follow k done cs place := by
  induction h with
  | arrived => exact .arrived
  | root _ ih => exact .root (ih there)
  | here _ ih => exact .here (ih there)
  | parent _ ih => exact .parent (ih there)
  | dir short dir _ ih =>
      obtain ⟨es, dir⟩ := ext.dirs _ _ dir
      exact .dir short dir (ih there)
  | link short link on _ ih => exact .link short (ext.links _ _ link) on (ih there)
  | last short parent _ _ =>
      obtain ⟨es, parent⟩ := ext.dirs _ _ parent
      exact .last short parent (by simp [there]) (by simp [there])

/-- One tree is the other with other files: its directories and its links are where they are there. -/
structure Filed (t t' : Files) : Prop where
  ext : Extends t t'
  links : ∀ q target, t'.get? q = some (.link target) → t.get? q = some (.link target)

theorem Filed.trans {t'' : Files} (h : Filed t t') (h' : Filed t' t'') : Filed t t'' := by
  refine ⟨⟨fun q es there => ?_, fun q target there => ?_⟩, fun q target there => ?_⟩
  · obtain ⟨es', there'⟩ := h.ext.dirs q es there
    exact h'.ext.dirs q es' there'
  · exact h'.ext.links q target (h.ext.links q target there)
  · exact h.links q target (h'.links q target there)

/-- Putting a file where no directory and no link is leaves these as they are. -/
theorem filed_put {base : List String} (parent : t.get? base = some (.dir es))
    (noDir : ∀ fs, t.get? (base ++ [s]) ≠ some (.dir fs))
    (noLink : ∀ target, t.get? (base ++ [s]) ≠ some (.link target)) (content : Octets) (executable : Bool) :
    Filed t (t.put (some (.file content executable)) (base ++ [s])) := by
  -- What is below the place is neither there before nor after.
  have alike {q : List String} (x : Files) (other : x.isDirectory = true ∨ ∃ target, x = .link target)
      (there : t.get? q = some x ∨ (t.put (some (.file content executable)) (base ++ [s])).get? q = some x) :
      Alike (t.get? q) ((t.put (some (.file content executable)) (base ++ [s])).get? q) := by
    by_cases below : base ++ [s] <+: q
    · exfalso
      by_cases same : base ++ [s] = q
      · subst same
        rcases there with there | there
        · rcases other with dir | ⟨target, rfl⟩
          · cases x with
            | dir fs => exact noDir fs there
            | file c e => cases dir
            | link target => cases dir
          · exact noLink target there
        · rw [get?_put_some parent] at there
          cases there
          rcases other with dir | ⟨target, eq⟩
          · cases dir
          · cases eq
      · rcases there with there | there
        · obtain ⟨fs, dir⟩ := dir_strictly_above there below same
          exact noDir fs dir
        · obtain ⟨fs, dir⟩ := dir_strictly_above there below same
          rw [get?_put_some parent] at dir
          cases dir
    · exact alike_put below _ t
  refine ⟨⟨fun q fs there => ?_, fun q target there => ?_⟩, fun q target there => ?_⟩
  · exact (there ▸ alike (.dir fs) (.inl rfl) (.inl there)).exists_dir
  · exact (there ▸ alike (.link target) (.inr ⟨target, rfl⟩) (.inl there)).eq_link
  · exact (there ▸ (alike (.link target) (.inr ⟨target, rfl⟩) (.inr there)).symm).eq_link

/-! Files by their paths. The path ends in a name. -/

theorem locate_of_find {x : Files} (there : t.find p = .ok x) :
    ∃ place, t.locate true p = .ok place ∧ t.get? place = some x := by
  unfold find at there
  cases found : t.locate true p with
  | error e =>
      rw [found] at there
      cases there
  | ok place =>
      rw [found] at there
      simp only [bind, Except.bind] at there
      cases entry : t.get? place with
      | none => simp [entry] at there
      | some y =>
          obtain rfl : y = x := by simpa [entry] using there
          exact ⟨place, rfl, entry⟩

theorem kind_of_find {x : Files} (there : t.find p = .ok x) : Host.kind t p true = .ok (Host.kindOf x) := by
  obtain ⟨place, found, entry⟩ := locate_of_find there
  rw [Host.kind, found]
  simp only [bind, Except.bind, entry]

/-- What is found by a path is found by the clean one. -/
theorem find_clean {h : Host} {x : Files} (abs : h.cwd.isAbsolute = true)
    (straight : Straight h.files h.cwd p) (there : h.files.find (h.absolute p) = .ok x) :
    h.files.find (h.absolute p.clean) = .ok x := by
  obtain ⟨place, found, entry⟩ := locate_of_find there
  rw [find, locate_clean abs straight found]
  simp only [bind, Except.bind, entry]

section named
variable (named : p.components = front ++ [.name s])
include named

/-- Putting a file where a path ends. -/
theorem find_put (found : t.locate true p = .ok place) (noDir : ∀ es, t.get? place ≠ some (.dir es))
    (content : Octets) (executable : Bool) :
    (t.put (some (.file content executable)) place).find p = .ok (.file content executable) ∧
      Filed t (t.put (some (.file content executable)) place) := by
  have written := check_of_locate found
  rw [locate_eq written] at found
  have ends := ends_of_walk found
  obtain ⟨k, base, es, leads, dir, -⟩ := ends.leads named
  obtain ⟨es, dir⟩ | ⟨base, n, es, rfl, parent, noLink⟩ :=
    ends.leaf (dir_above ⟨es, dir⟩ List.nil_prefix)
  · exact absurd dir (noDir es)
  · have filed := filed_put parent noDir noLink content executable
    have there := get?_put_some parent (.file content executable) n
    refine ⟨?_, filed⟩
    rw [find, locate_eq written, (ends.extends filed.ext there).walk]
    simp only [bind, Except.bind, there]

theorem find_write {content : Octets} (made : t.write p content = .ok t') :
    (∃ executable, t'.find p = .ok (.file content executable)) ∧ Filed t t' := by
  obtain ⟨place, executable, found, noDir, rfl⟩ := write_cases made
  obtain ⟨there, filed⟩ := find_put named found noDir content executable
  exact ⟨⟨executable, there⟩, filed⟩

theorem find_allowRun {content : Octets} {executable : Bool}
    (there : t.find p = .ok (.file content executable)) :
    ∃ t', t.allowRun p = .ok t' ∧ t'.find p = .ok (.file content true) ∧ Filed t t' := by
  obtain ⟨place, found, entry⟩ := locate_of_find there
  obtain ⟨after, filed⟩ := find_put named found (by simp [entry]) content true
  refine ⟨_, ?_, after, filed⟩
  unfold allowRun
  rw [found]
  simp only [bind, Except.bind, entry]

/-- What is found by a path stands in the directory before its name, or a link there leads to it. -/
theorem exists_entry {x : Files} (there : t.find p = .ok x) :
    ∃ k base es, Leads t linkLimit [] front k base ∧ t.get? base = some (.dir es) ∧
      s.utf8ByteSize ≤ nameLimit ∧
      (Table.get? s es = some x ∨ ∃ target, Table.get? s es = some (.link target)) := by
  obtain ⟨place, found, there⟩ := locate_of_find there
  rw [locate_eq (check_of_locate found)] at found
  obtain ⟨k, base, es, leads, dir, short, ends⟩ := (ends_of_walk found).leads named
  have entry : t.get? (base ++ [s]) = Table.get? s es := by
    rw [get?_concat, dir, Option.bind_some, entries]
  refine ⟨k, base, es, leads, dir, short, ?_⟩
  cases ends with
  | dir _ _ rest =>
      cases rest
      exact .inl (entry ▸ there)
  | link _ link _ _ => exact .inr ⟨_, entry ▸ link⟩
  | last _ _ _ _ => exact .inl (entry ▸ there)

theorem kind_link {base : List String} {target : Path} (written : check p = .ok ())
    (leads : Leads t linkLimit [] front k base) (dir : t.get? base = some (.dir es))
    (short : s.utf8ByteSize ≤ nameLimit) (link : Table.get? s es = some (.link target)) :
    Host.kind t p false = .ok .link := by
  have entry : t.get? (base ++ [s]) = some (.link target) := by
    rw [get?_concat, dir, Option.bind_some, entries, link]
  rw [Host.kind, locate_eq written, named, leads.walk false [.name s] (.inl (by simp)),
    walk_last short dir (by simp)]
  simp only [bind, Except.bind, entry, Host.kindOf]

end named

/-- A path and the same one written anew from its components lead to the same place. -/
theorem locate_rewritten {cwd p : Path} (abs : cwd.isAbsolute = true) (some : Path.parts p.text ≠ [])
    (written : check (cwd / p.text) = .ok ()) (t : Files) (follow : Bool) :
    t.locate follow (cwd / (Path.ofComponents p.components).text) = t.locate follow (cwd / p.text) := by
  have inside := Path.rewritten_sublist (.refl (Path.parts p.text))
  rw [← Path.components_eq] at inside
  have rewritten := check_of_sublist (Path.isAbsolute_rewritten p)
    (from_ne_empty cwd (Path.rewritten_ne_empty some)) inside written
  rw [locate_eq rewritten, locate_eq written, Path.components_from_rewritten abs]

end LanguageHost.Files

namespace LanguageHost

/-! Where a file below a directory stands. -/

/-- What stands under a name in a directory. -/
def Host.HasChild (h : Host) (dir : Path) (name : String) (x : Files) : Prop :=
  ∃ base entries, h.files.locate true (h.cwd / dir.text) = .ok base ∧
    h.files.get? base = some (.dir entries) ∧ Table.get? name entries = some x

namespace Host
open Files

variable {h h' : Host} {dir : Path} {name : String}

section child
variable (ordinary : (Path.Component.name name).Ordinary)
include ordinary

theorem absolute_child : h.absolute (dir / name) = h.cwd / (dir / name).text :=
  absolute_of_ne (Path.child_ne_empty ordinary)

variable (abs : h.cwd.isAbsolute = true)
include abs

theorem components_absolute_child :
    (h.absolute (dir / name)).components = (h.cwd / dir.text).components ++ [.name name] := by
  rw [absolute_child ordinary, Path.components_from abs (@Path.relative_name name ordinary)]
  exact congrArg _ (Path.parts_text ordinary)

/-- Where a file below a directory can be written, the directory can. -/
theorem check_dir (written : check (h.absolute (dir / name)) = .ok ()) : check (h.cwd / dir.text) = .ok () := by
  have relative := @Path.relative_name name ordinary
  have inside : dir.text.toList.Sublist (dir / name).text.toList := by
    change dir.text.toList.Sublist (Path.join dir name).text.toList
    rw [Path.join, if_neg (by simp [relative])]
    split
    · next empty =>
        rw [empty]
        exact List.nil_sublist _
    · split
      · exact String.toList_append ▸ List.sublist_append_left _ _
      · rw [String.append_assoc, String.toList_append]
        exact List.sublist_append_left _ _
  have some : (h.cwd / dir.text).text ≠ "" := by
    intro empty
    have rooted := Path.isAbsolute_from abs dir
    rw [Path.isAbsolute, empty] at rooted
    cases rooted
  rw [absolute_child ordinary] at written
  exact check_of_sublist (Path.isAbsolute_join relative).symm some inside written

theorem locate_dir {t : Files} {k : Nat} {base : List String}
    (written : check (h.absolute (dir / name)) = .ok ())
    (leads : Leads t linkLimit [] (h.cwd / dir.text).components k base) :
    t.locate true (h.cwd / dir.text) = .ok base := by
  have walked := leads.walk true [] (.inr rfl)
  rw [List.append_nil, Files.walk] at walked
  rw [locate_eq (check_dir ordinary abs written), walked]

theorem hasChild_of_find {x : Files} (found : h.files.find (h.absolute (dir / name)) = .ok x) :
    h.HasChild dir name x ∨ ∃ target, h.HasChild dir name (.link target) := by
  obtain ⟨place, located, -⟩ := locate_of_find found
  have written := check_of_locate located
  obtain ⟨k, base, es, leads, there, -, entry⟩ :=
    exists_entry (components_absolute_child ordinary abs) found
  have here := locate_dir ordinary abs written leads
  rcases entry with itself | ⟨target, link⟩
  · exact .inl ⟨base, es, here, there, itself⟩
  · exact .inr ⟨target, base, es, here, there, link⟩

variable {place : List String} {target : Path}
  (located : h.files.locate true (h.absolute (dir / name)) = .ok place)
include located

/-- A link that stands under a name once files have been written stood there before. -/
theorem hasChild_of_filed (filed : Filed h.files h'.files) (same : h'.fixed = h.fixed)
    (link : h'.HasChild dir name (.link target)) : h.HasChild dir name (.link target) := by
  have written := check_of_locate located
  have walked := locate_eq written h.files true ▸ located
  obtain ⟨k, base, es, leads, there, -⟩ := (ends_of_walk walked).leads (components_absolute_child ordinary abs)
  obtain ⟨base', es', located', there', entry⟩ := link
  rw [cwd_eq same, locate_dir ordinary abs written (leads.extends filed.ext)] at located'
  obtain rfl := Except.ok.inj located'
  have before := filed.links (base ++ [name]) target
    (by rw [get?_concat, there', Option.bind_some, entries, entry])
  rw [get?_concat, there, Option.bind_some, entries] at before
  exact ⟨base, es, locate_dir ordinary abs written leads, there, before⟩

theorem kind_of_hasChild_link (link : h.HasChild dir name (.link target)) :
    Host.kind h.files (h.absolute (dir / name)) false = .ok .link := by
  have written := check_of_locate located
  have named : (h.absolute (dir / name)).components = _ := components_absolute_child ordinary abs
  have walked := locate_eq written h.files true ▸ located
  obtain ⟨k, base, es, leads, there, short, -⟩ := (ends_of_walk walked).leads named
  obtain ⟨base', es', located', there', entry⟩ := link
  rw [locate_dir ordinary abs written leads] at located'
  obtain rfl := Except.ok.inj located'
  exact kind_link named written leads there' short entry

end child

end Host

end LanguageHost
