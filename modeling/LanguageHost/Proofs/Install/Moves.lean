import LanguageHost.Proofs.Install.Backends

/-! Between its attempts an install rests at its place, or aside. Setting it aside and bringing it back
move it whole, and writing the manifest leaves it where it is. -/
namespace LanguageHost.Install
open Files

/-- Anything but a link, or nothing at all. -/
def Solid (x : Option Files) : Prop := ∀ target, x ≠ some (.link target)

theorem solid_none : Solid none := by
  intro target h
  cases h

theorem Solid.or {x y : Option Files} (hx : Solid x) (hy : Solid y) : Solid (x.or y) := by
  cases x with
  | none => exact hy
  | some a => exact hx

namespace Site
variable {servers : Path} {name : String} {manifest : Path} {s : Site servers name manifest}
  {own : List String} {kept before x y : Option Files} {t : Files}

/-- What stands at the places that an install is about. -/
structure Resting (s : Site servers name manifest) (x y before : Option Files) (t : Files) : Prop where
  sound : s.Sound t
  place : t.get? s.place = x
  aside : t.get? s.aside = y
  manifest : t.get? s.manifestPlace = before

theorem Resting.put_place (h : s.Resting x y before t) (entry : Option Files) :
    s.Resting ((t.put entry s.place).get? s.place) y before (t.put entry s.place) where
  sound := h.sound.put_off off_place entry
  place := rfl
  aside := by rw [get?_put_apart place_not_above_aside aside_not_above_place, h.aside]
  manifest := by rw [get?_put_apart place_apart_manifest.1 place_apart_manifest.2, h.manifest]

theorem Resting.put_aside (h : s.Resting x y before t) (entry : Option Files) :
    s.Resting x ((t.put entry s.aside).get? s.aside) before (t.put entry s.aside) where
  sound := h.sound.put_off off_aside entry
  place := by rw [get?_put_apart aside_not_above_place place_not_above_aside, h.place]
  aside := rfl
  manifest := by rw [get?_put_apart aside_apart_manifest.1 aside_apart_manifest.2, h.manifest]

theorem calm_of_absent (absent : t.get? s.place = none) : s.Calm own t where
  place target there := by
    rw [absent] at there
    cases there
  own n _ target there := by
    rw [get?_below_absent absent (List.prefix_append _ _)] at there
    cases there
  names es there := by
    rw [absent] at there
    cases there

/-- What is in the directory alone decides whether it is calm. -/
theorem Calm.of_place_eq {t t' : Files} (calm : s.Calm own t)
    (same : t'.get? s.place = t.get? s.place) : s.Calm own t' where
  place := by
    rw [same]
    exact calm.place
  own n hn := by
    rw [get?_append, same, ← get?_append]
    exact calm.own n hn
  names := by
    rw [same]
    exact calm.names

theorem Underway.resting (h : s.Underway own kept before t) :
    s.Resting (t.get? s.place) kept before t :=
  ⟨h.sound, rfl, h.aside, h.manifest⟩

theorem Resting.underway (h : s.Resting none kept before t) : s.Underway own kept before t :=
  ⟨h.sound, calm_of_absent h.place, h.aside, h.manifest⟩

/-! Looking at one of the two places, emptying it, and moving it to the other. -/

/-- The answer for an entry beside the directory is what stands there. -/
def Tells (s : Site servers name manifest) (n : String) (r : Except IoError FileKind) (t : Files) :
    Prop :=
  r = match t.get? (s.base ++ [n]) with
    | some x => .ok (Host.kindOf x)
    | none => .error .notFound

theorem Tells.there {n : String} {k : FileKind} (h : s.Tells n (.ok k) t) :
    ∃ x, t.get? (s.base ++ [n]) = some x ∧ k = Host.kindOf x := by
  unfold Tells at h
  split at h
  · next x there => exact ⟨x, there, Except.ok.inj h⟩
  · cases h

theorem Tells.absent {n : String} {e : IoError} (h : s.Tells n (.error e) t) :
    t.get? (s.base ++ [n]) = none ∧ e = .notFound := by
  unfold Tells at h
  split at h
  · cases h
  · next absent => exact ⟨absent, Except.error.inj h⟩

section slot
variable {p : Path} {n : String} (slot : Slot s.ground (s.cwd / p.text) s.base n) (ne : p.text ≠ "")
  {P Q : Files → Prop} (good : ∀ t, P t → s.Sound t ∧ Solid (t.get? (s.base ++ [n])))
include slot ne good

theorem holds_kind (follow : Bool) :
    Program.Holds (s.Fair own) P (Program.ask (.kind p follow)) (fun r t => P t ∧ s.Tells n r t) P := by
  refine .ask (fun _ h => h) fun h start fair => ⟨⟨start, ?_⟩, start⟩
  obtain ⟨sound, solid⟩ := good _ start
  have answer : (h.answer (.kind p follow)).1 = Host.kind h.files (s.cwd / p.text) follow := by
    rw [← absolute_eq ne fair]
    rfl
  rw [answer, Tells]
  exact slot.kind_eq sound.extends_ground sound.base solid

theorem holds_exists :
    Program.Holds (s.Fair own) P (Program.exists? p)
      (fun r t => P t ∧ r = (t.get? (s.base ++ [n])).isSome) P := by
  refine (holds_kind slot ne good true).bind fun r => .pure (fun t h => ⟨h.1, ?_⟩) fun t h => h.1
  rw [h.2]
  cases t.get? (s.base ++ [n]) <;> rfl

omit slot good in
/-- A removal that is made and not prevented. -/
theorem holds_removal {R : Files → Prop} {c : Call (Except IoError Unit)}
    {op : Files → Path → Except IoError Files}
    (answer : ∀ h : Host, h.answer c = h.change fun t => op t (h.absolute p)) (moves : s.Moves c)
    (start : ∀ t, R t → P t)
    (made : ∀ t, R t → ∃ t', op t (s.cwd / p.text) = .ok t' ∧ Q t') :
    Program.Holds (s.Fair own) R (Program.ask c) (fun r t => r = .ok () ∧ Q t)
      fun t => P t ∨ Q t := by
  refine .ask (fun t h => .inl (start t h)) fun h begun fair => ?_
  obtain ⟨t', done, post⟩ := made _ begun
  rw [← absolute_eq ne fair] at done
  obtain ⟨ok, files⟩ := Host.change_eq (f := fun t => op t (h.absolute p)) (fair.moves moves) done
  rw [answer h, ok, files]
  exact ⟨⟨rfl, post⟩, .inr post⟩

/-- Removing empties the place, and says so. -/
theorem holds_removePath (own_path : p = s.path ∨ p = s.asidePath)
    (absent : ∀ t, P t → t.get? (s.base ++ [n]) = none → Q t)
    (present : ∀ t, P t → t.get? (s.base ++ [n]) ≠ none → Q (t.put none (s.base ++ [n]))) :
    Program.Holds (s.Fair own) P (removePath p) (fun r t => r = .ok () ∧ Q t) fun t => P t ∨ Q t := by
  have kind : Program.Holds (s.Fair own) P (Program.ask (.kind p false))
      (fun r t => P t ∧ s.Tells n r t) fun t => P t ∨ Q t :=
    (holds_kind slot ne good false).mono (fun _ h => h) (fun _ _ h => h) fun _ => .inl
  have leaf : ∀ k, k ≠ FileKind.directory → ∀ t, P t ∧ s.Tells n (.ok k) t →
      ∃ t', t.removeFile (s.cwd / p.text) = .ok t' ∧ Q t' := by
    intro k notDir t h
    obtain ⟨x, there, rfl⟩ := h.2.there
    refine ⟨_, slot.removeFile_eq (good t h.1).1.extends_ground there ?_,
      present t h.1 (by simp [there])⟩
    cases x <;> first | rfl | exact absurd rfl notDir
  have tree : ∀ t, P t ∧ s.Tells n (.ok .directory) t →
      ∃ t', t.removeTree (s.cwd / p.text) = .ok t' ∧ Q t' := by
    intro t h
    obtain ⟨x, there, dir⟩ := h.2.there
    refine ⟨_, slot.removeTree_eq (good t h.1).1.extends_ground there ?_,
      present t h.1 (by simp [there])⟩
    cases x <;> first | rfl | cases dir
  refine kind.bind fun r => ?_
  cases r with
  | error e =>
      refine .of_fact (fun t h => h.2.absent.2) fun same => ?_
      subst same
      exact .pure (fun t h => ⟨rfl, absent t h.1 h.2.absent.1⟩) fun t h => .inl h.1
  | ok k =>
      have ending : ∀ (r : Except IoError Unit) (x : Program (Except IoError Unit)),
          (r = .ok () → x = Pure.pure (.ok ())) →
          Program.Holds (s.Fair own) (fun t => r = .ok () ∧ Q t) x (fun r t => r = .ok () ∧ Q t)
            fun t => P t ∨ Q t := by
        intro r x told
        refine .of_fact (fun t h => h.1) fun done => ?_
        rw [told done]
        exact .pure (fun t h => ⟨rfl, h.2⟩) fun t h => .inr h.2
      cases k with
      | directory =>
          exact (holds_removal (c := .removeTree p) ne (fun h => rfl) own_path
            (fun _ h => h.1) tree).bind fun r => ending r _ (by rintro rfl; rfl)
      | file =>
          exact (holds_removal (c := .removeFile p) ne (fun h => rfl) own_path
            (fun _ h => h.1) (leaf _ (by simp))).bind fun r => ending r _ (by rintro rfl; rfl)
      | link =>
          exact (holds_removal (c := .removeFile p) ne (fun h => rfl) own_path
            (fun _ h => h.1) (leaf _ (by simp))).bind fun r => ending r _ (by rintro rfl; rfl)

end slot

/-- A rename that is made and not prevented. -/
theorem holds_rename {p q : Path} {n m : String} {P Q : Files → Prop}
    (from_slot : Slot s.ground (s.cwd / p.text) s.base n)
    (to_slot : Slot s.ground (s.cwd / q.text) s.base m) (hp : p.text ≠ "") (hq : q.text ≠ "")
    (other : n ≠ m) (moves : s.Moves (.rename p q))
    (good : ∀ t, P t → s.Sound t ∧ ∃ v, t.get? (s.base ++ [n]) = some v ∧
      t.get? (s.base ++ [m]) = none ∧ Q ((t.put none (s.base ++ [n])).put (some v) (s.base ++ [m]))) :
    Program.Holds (s.Fair own) P (Program.ask (.rename p q)) (fun r t => r = .ok () ∧ Q t)
      fun t => P t ∨ Q t := by
  refine .ask (fun t h => .inl h) fun h start fair => ?_
  obtain ⟨sound, v, there, free, post⟩ := good _ start
  have done := from_slot.rename_eq sound.extends_ground there to_slot other free
  rw [← absolute_eq hp fair, ← absolute_eq hq fair] at done
  obtain ⟨ok, files⟩ := Host.change_eq (f := fun t => t.rename (h.absolute p) (h.absolute q))
    (fair.moves moves) done
  have answer : h.answer (.rename p q) = h.change fun t => t.rename (h.absolute p) (h.absolute q) :=
    rfl
  rw [answer, ok, files]
  exact ⟨⟨rfl, post⟩, .inr post⟩

/-- What is put beside a directory that is there is there. -/
theorem get?_put_beside {n m : String} {v : Files} (there : t.get? (s.base ++ [n]) = some v)
    (entry : Files) :
    ((t.put none (s.base ++ [n])).put (some entry) (s.base ++ [m])).get? (s.base ++ [m]) =
      some entry := by
  obtain ⟨es, parent⟩ := dir_of_get?_concat there
  have alike := alike_put (not_above_base (s := s) (n := n)) none t
  rw [parent] at alike
  obtain ⟨es', parent'⟩ := alike.exists_dir
  exact get?_put_some parent' entry m

theorem Resting.removed_aside (h : s.Resting x y before t) :
    s.Resting x none before (t.put none s.aside) := by
  have emptied := h.put_aside none
  have gone := get?_put_none (aside_ne_nil (s := s)) t []
  rw [List.append_nil] at gone
  rwa [gone] at emptied

theorem Resting.removed_place (h : s.Resting x y before t) :
    s.Resting none y before (t.put none s.place) := by
  have emptied := h.put_place none
  have gone := get?_put_none (place_ne_nil (s := s)) t []
  rw [List.append_nil] at gone
  rwa [gone] at emptied

theorem Resting.moved_aside {v : Files} (h : s.Resting (some v) none before t) :
    s.Resting none (some v) before ((t.put none s.place).put (some v) s.aside) := by
  have moved := h.removed_place.put_aside (some v)
  have landed : ((t.put none s.place).put (some v) s.aside).get? s.aside = some v :=
    get?_put_beside h.place v
  rwa [landed] at moved

theorem Resting.moved_back {v : Files} (h : s.Resting none (some v) before t) :
    s.Resting (some v) none before ((t.put none s.aside).put (some v) s.place) := by
  have moved := h.removed_aside.put_place (some v)
  have landed : ((t.put none s.aside).put (some v) s.place).get? s.place = some v :=
    get?_put_beside h.aside v
  rwa [landed] at moved

/-- The path of the copy aside is one that can be used. -/
structure Fits (s : Site servers name manifest) : Prop where
  written : check (s.cwd / s.asidePath.text) = .ok ()
  short : (asideName name).utf8ByteSize ≤ nameLimit

theorem aside_components :
    (s.cwd / s.asidePath.text).components =
      (s.cwd / servers.text).components ++ [.name (asideName name)] := by
  have named := s.name_ordinary.asideName
  rw [asidePath, Path.components_from s.absolute named.relative, named.parts]

theorem Fits.slot (fits : s.Fits) :
    Slot s.ground (s.cwd / s.asidePath.text) s.base (asideName name) where
  written := fits.written
  short := fits.short
  way := ⟨_, aside_components, s.servers_way⟩

theorem aside_ne_empty : s.asidePath.text ≠ "" := Path.child_ne_empty s.name_ordinary.asideName

/-- What there is to keep is at one of the two places at least. -/
def Recoverable (s : Site servers name manifest) (v before : Option Files) (t : Files) : Prop :=
  ∃ x y, s.Resting x y before t ∧ Solid x ∧ Solid y ∧ (x = none → y = v)

theorem Resting.recoverable (h : s.Resting x y before t) (hx : Solid x) (hy : Solid y) :
    s.Recoverable (x.or y) before t := by
  refine ⟨x, y, h, hx, hy, ?_⟩
  rintro rfl
  rfl

/-! Setting aside. -/

section setAside
variable (hx : Solid x) (hy : Solid y)

include hx in
theorem holds_look_place {C : Files → Prop} (crash : ∀ t, s.Resting x y before t → C t) :
    Installing.Holds (s.Fair own) (s.Resting x y before) (Installing.exists? s.path)
      (fun r t => s.Resting x y before t ∧ r = x.isSome) (fun _ => False) C := by
  have looked : Program.Holds (s.Fair own) (s.Resting x y before) (Program.exists? s.path) _ _ :=
    holds_exists place_slot path_ne_empty fun t h => ⟨h.sound, h.place.symm ▸ hx⟩
  refine .lift (looked.mono (fun _ h => h) (fun r t h => ⟨h.1, ?_⟩) crash) fun _ t h => crash t h.1
  rw [h.2, ← h.1.place]
  rfl

include hy in
theorem holds_look_aside (fits : s.Fits) {C : Files → Prop}
    (crash : ∀ t, s.Resting x y before t → C t) :
    Installing.Holds (s.Fair own) (s.Resting x y before) (Installing.exists? s.asidePath)
      (fun r t => s.Resting x y before t ∧ r = y.isSome) (fun _ => False) C := by
  have looked : Program.Holds (s.Fair own) (s.Resting x y before) (Program.exists? s.asidePath) _ _ :=
    holds_exists fits.slot aside_ne_empty fun t h => ⟨h.sound, h.aside.symm ▸ hy⟩
  refine .lift (looked.mono (fun _ h => h) (fun r t h => ⟨h.1, ?_⟩) crash) fun _ t h => crash t h.1
  rw [h.2, ← h.1.aside]
  rfl

include hx in
/-- The last step moves what is in place aside. -/
theorem holds_depart (fits : s.Fits) :
    Installing.Holds (s.Fair own) (s.Resting x none before)
      (do
        if ← Installing.exists? s.path then
          Installing.io (.rename s.path s.asidePath)
          pure true
        else pure false)
      (fun had t => s.Resting none x before t ∧ had = x.isSome) (fun _ => False)
      (s.Recoverable x before) := by
  have first : ∀ t, s.Resting x none before t → s.Recoverable x before t := by
    intro t h
    have := h.recoverable hx solid_none
    rwa [Option.or_none] at this
  have last : ∀ t, s.Resting none x before t → s.Recoverable x before t :=
    fun t h => h.recoverable solid_none hx
  refine (holds_look_place hx first).bind (fun r => ?_) fun _ h => h.elim
  refine .of_fact (fun t h => h.2) fun seen => ?_
  subst seen
  cases x with
  | none => exact .pure (fun t h => ⟨h.1, rfl⟩) fun t h => first t h.1
  | some v =>
      have renamed : Program.Holds (s.Fair own)
          (fun t => s.Resting (some v) none before t ∧ true = (some v).isSome)
          (Program.ask (.rename s.path s.asidePath))
          (fun r t => r = .ok () ∧ s.Resting none (some v) before t) _ :=
        holds_rename place_slot fits.slot path_ne_empty aside_ne_empty (asideName_ne name).symm
          (.inl ⟨rfl, rfl⟩) fun t h => ⟨h.1.sound, v, h.1.place, h.1.aside, h.1.moved_aside⟩
      have moved := Installing.Holds.io_done (C := s.Recoverable (some v) before) last
        (renamed.mono (fun _ h => h) (fun _ _ h => h)
          fun t h => h.elim (fun h => first t h.1) (last t))
      refine moved.bind (fun _ => ?_) fun _ h => h.elim
      exact .pure (fun t h => ⟨h, rfl⟩) last

include hy in
/-- The copy aside goes where something else is in place. -/
theorem holds_clear_aside (fits : s.Fits) :
    Program.Holds (s.Fair own) (s.Resting x y before) (removePath s.asidePath)
      (fun r t => r = .ok () ∧ s.Resting x none before t)
      fun t => s.Resting x y before t ∨ s.Resting x none before t := by
  refine holds_removePath fits.slot aside_ne_empty (fun t h => ⟨h.sound, ?_⟩) (.inr rfl) ?_ ?_
  · exact (h.aside.symm ▸ hy : Solid (t.get? s.aside))
  · intro t h absent
    exact ⟨h.sound, h.place, absent, h.manifest⟩
  · exact fun t h _ => h.removed_aside

include hx hy in
/-- A copy left aside is brought back, or removed when something is in place; then what is in place is
set aside. -/
theorem holds_setAside (fits : s.Fits) :
    Installing.Holds (s.Fair own) (s.Resting x y before) (setAside s.path s.asidePath)
      (fun had t => s.Resting none (x.or y) before t ∧ had = (x.or y).isSome) (fun _ => False)
      (s.Recoverable (x.or y) before) := by
  have first : ∀ t, s.Resting x y before t → s.Recoverable (x.or y) before t :=
    fun t h => h.recoverable hx hy
  unfold setAside
  refine (holds_look_aside hy fits first).bind (fun r => ?_) fun _ h => h.elim
  refine .of_fact (fun t h => h.2) fun seen => ?_
  subst seen
  cases y with
  | none =>
      simp only [Option.or_none, Option.isSome_none, Bool.false_eq_true, if_false]
      exact (holds_depart hx fits).mono (fun t h => h.1) (fun _ _ h => h) (fun _ h => h) fun _ h => h
  | some w =>
      simp only [Option.isSome_some, if_true]
      refine Installing.Holds.bind ((holds_look_place hx first).mono (fun t h => h.1) (fun _ _ h => h)
        (fun _ h => h) fun _ h => h) (fun r => ?_) fun _ h => h.elim
      refine .of_fact (fun t h => h.2) fun seen => ?_
      subst seen
      cases x with
      | some v =>
          have last : ∀ t, s.Resting (some v) none before t → s.Recoverable (some v) before t :=
            fun t h => h.recoverable hx solid_none
          have cleared : Program.Holds (s.Fair own)
              (fun t => s.Resting (some v) (some w) before t ∧ true = (some v).isSome)
              (removePath s.asidePath) (fun r t => r = .ok () ∧ s.Resting (some v) none before t)
              (s.Recoverable (some v) before) :=
            (holds_clear_aside hy fits).mono (fun _ h => h.1) (fun _ _ h => h)
              fun t h => h.elim (first t) (last t)
          refine (Installing.Holds.remove_done last cleared).bind (fun _ => ?_) fun _ h => h.elim
          exact holds_depart hx fits
      | none =>
          have last : ∀ t, s.Resting (some w) none before t → s.Recoverable (some w) before t :=
            fun t h => h.recoverable hy solid_none
          have renamed : Program.Holds (s.Fair own)
              (fun t => s.Resting none (some w) before t ∧ false = (none : Option Files).isSome)
              (Program.ask (.rename s.asidePath s.path))
              (fun r t => r = .ok () ∧ s.Resting (some w) none before t) _ :=
            holds_rename fits.slot place_slot aside_ne_empty path_ne_empty (asideName_ne name)
              (.inr ⟨rfl, rfl⟩) fun t h => ⟨h.1.sound, w, h.1.aside, h.1.place, h.1.moved_back⟩
          have moved := Installing.Holds.io_done (C := s.Recoverable (some w) before) last
            (renamed.mono (fun _ h => h) (fun _ _ h => h)
              fun t h => h.elim (fun h => first t h.1) (last t))
          refine moved.bind (fun _ => ?_) fun _ h => h.elim
          exact holds_depart hy fits

theorem not_located (unfit : ¬ s.Fits) (sound : s.Sound t) (follow : Bool) (ns : List String) :
    t.locate follow (s.cwd / s.asidePath.text) ≠ .ok ns := by
  intro found
  have written := check_of_locate found
  have long : nameLimit < (asideName name).utf8ByteSize :=
    Nat.lt_of_not_le fun short => unfit ⟨written, short⟩
  rw [locate_eq written, aside_components] at found
  cases hbase : t.get? s.base with
  | none =>
      rw [s.servers_way.walk_missing sound.extends_ground sound.base hbase (by simp)] at found
      cases found
  | some x =>
      obtain ⟨es, there⟩ := sound.base.dir hbase
      obtain ⟨k, walked⟩ := s.servers_way.walk_dir sound.extends_ground there follow
        [.name (asideName name)] (.inl (by simp))
      obtain ⟨e, failed⟩ := walk_long t follow k s.base [] long
      rw [walked, failed] at found
      cases found

include hx in
/-- Where the copy aside cannot be named nothing is set aside. -/
theorem holds_setAside_unfit (unfit : ¬ s.Fits) :
    Installing.Holds (s.Fair own) (s.Resting x y before) (setAside s.path s.asidePath)
      (fun had t => s.Resting x y before t ∧ x = none ∧ had = false) (s.Resting x y before)
      (s.Resting x y before) := by
  have same : ∀ t, s.Resting x y before t → s.Resting x y before t := fun _ h => h
  have unseen : Program.Holds (s.Fair own) (s.Resting x y before) (Program.exists? s.asidePath)
      (fun r t => s.Resting x y before t ∧ r = false) (s.Resting x y before) := by
    refine Program.Holds.bind (R := fun r t => s.Resting x y before t ∧ r.isOk = false)
      (.ask same fun h start fair => ⟨⟨start, ?_⟩, start⟩) fun r => .pure (fun _ h => h) fun _ h => h.1
    change (Host.kind h.files (h.absolute s.asidePath) true).isOk = false
    rw [absolute_eq aside_ne_empty fair, Host.kind]
    cases found : h.files.locate true (s.cwd / s.asidePath.text) with
    | error e => rfl
    | ok ns => exact absurd found (not_located unfit start.sound true ns)
  unfold setAside
  refine Installing.Holds.bind (.lift unseen fun _ _ h => h.1) (fun r => ?_) same
  refine .of_fact (fun t h => h.2) fun seen => ?_
  subst seen
  simp only [Bool.false_eq_true, if_false]
  refine Installing.Holds.bind ((holds_look_place hx same).mono (fun t h => h.1) (fun _ _ h => h)
    (fun _ h => h.elim) fun _ h => h) (fun r => ?_) same
  refine .of_fact (fun t h => h.2) fun seen => ?_
  subst seen
  cases x with
  | none => exact .pure (fun t h => ⟨h.1, rfl, rfl⟩) fun t h => h.1
  | some v =>
      refine Installing.Holds.bind (R := fun _ _ => False) ?_ (fun _ => .never) same
      refine .io (fun h start fair => ?_) (fun t h => h.1) (fun _ _ h => h.elim) same
      rcases h.change_cases fun t => t.rename (h.absolute s.path) (h.absolute s.asidePath)
        with ⟨e, refused, files⟩ | ⟨t, made, _, _⟩
      · refine ⟨fun a done => ?_, fun e' _ => ?_⟩
        · cases refused.symm.trans done
        · exact files ▸ start.1
      · obtain ⟨source, target, _, found, _⟩ := rename_cases made
        rw [absolute_eq aside_ne_empty fair] at found
        exact absurd found (not_located unfit start.1.sound false target)

end setAside

end Site

end LanguageHost.Install

/-! Writing the manifest. It changes only at the very end, when the draft takes its place; the directory
of the install and the copy aside stay as they are. -/
namespace LanguageHost.Install
open Files
open Program (Fallible)

namespace Site
variable {servers : Path} {name : String} {manifest : Path} {s : Site servers name manifest}
  {own : List String} {kept before x y : Option Files} {t : Files}

/-! Changes beside the manifest. -/

theorem Resting.put_home {q : List String} (h : s.Resting x y before t) (pre : q <+: s.home)
    (absent : t.get? q = none) : s.Resting x y before (t.put (some empty) q) := by
  have ne : q ≠ [] := by
    rintro rfl
    cases absent
  have below : ¬ s.manifestPlace <+: q := fun above => off_manifest.home (above.trans pre)
  refine ⟨h.sound.put_new ne absent, ?_, ?_, ?_⟩
  · rw [get?_put_empty ne absent fun above => off_place.home (above.trans pre), h.place]
  · rw [get?_put_empty ne absent fun above => off_aside.home (above.trans pre), h.aside]
  · rw [get?_put_empty ne absent below, h.manifest]

theorem Resting.put_draft {entry : Option Files} (h : s.Resting x y before t)
    (file : AtMostFile entry) (drafted : s.spot.Drafted t) : s.Resting x y before (t.put entry s.draftPlace) := by
  have place := s.apart name (by simp) (draftName s.file) (by simp)
  have aside := s.apart (asideName name) (by simp) (draftName s.file) (by simp)
  refine ⟨h.sound.put_draft file drafted, ?_, ?_, ?_⟩
  · exact (get?_put_apart place.2 place.1 entry t).trans h.place
  · exact (get?_put_apart aside.2 aside.1 entry t).trans h.aside
  · exact (get?_put_apart (Spot.draft_not_above_place (s := s.spot)) Spot.place_not_above_draft
      entry t).trans h.manifest

theorem Resting.put_manifest (h : s.Resting x y before t) (entry : Option Files) :
    s.Resting x y ((t.put entry s.manifestPlace).get? s.manifestPlace)
      (t.put entry s.manifestPlace) := by
  refine ⟨h.sound.put_off off_manifest entry, ?_, ?_, rfl⟩
  · rw [get?_put_apart place_apart_manifest.2 place_apart_manifest.1, h.place]
  · rw [get?_put_apart aside_apart_manifest.2 aside_apart_manifest.1, h.aside]

/-- Something is in the manifest's place; the rest is as it was. -/
def Registered (s : Site servers name manifest) (x y : Option Files) (t : Files) : Prop :=
  ∃ now, s.Resting x y now t

theorem Resting.registered (h : s.Resting x y before t) : s.Registered x y t := ⟨before, h⟩

theorem holds_save (format : Manifest.Format) (m : Manifest) :
    Fallible.Holds (s.Fair own) (s.Resting x y before) (Manifest.save format manifest m)
      (fun _ => s.Registered x y) (s.Resting x y before) (s.Registered x y) := by
  have kept : ∀ t, s.Resting x y before t → s.Registered x y t := fun _ => Resting.registered
  unfold Manifest.save
  cases written : format.write m with
  | error e => exact Program.Holds.pure (fun _ h => h) kept
  | ok text =>
      refine (Spot.holds_publish (s := s.spot) (R := s.Registered x y) text (fun _ _ _ fair => fair.cwd)
        (fun _ h => h.sound.spot) (fun t q h pre _ absent => h.put_home pre absent) ?_ ?_).mono
        (fun _ h => h) (fun _ _ h => h) fun t h => h.elim (kept t) id
      · exact fun t executable h drafted => h.put_draft (atMostFile_file _ _) drafted
      · intro t executable h drafted _
        have emptied : s.Resting x y before (t.put none s.draftPlace) := h.put_draft atMostFile_none drafted
        exact ⟨_, emptied.put_manifest _⟩

/-- A registration that fails has changed nothing that is kept. -/
theorem holds_register {configs : ServerConfigs} (registry : configs.path = manifest)
    (e : RegistryEntry) (m : InstallMethod) (version : String) (b : ServerBinary) :
    Fallible.Holds (s.Fair own) (s.Resting x y before) (register configs e m version b)
      (fun _ => s.Registered x y) (s.Resting x y before) (s.Registered x y) := by
  have kept : ∀ t, s.Resting x y before t → s.Registered x y t := fun _ => Resting.registered
  have now : Program.Holds (s.Fair own) (s.Resting x y before) (Program.ask .now)
      (fun _ => s.Resting x y before) (s.Registered x y) :=
    .ask kept fun h start _ => ⟨start, kept _ start⟩
  refine Fallible.Holds.bind (.lift now fun _ => kept) (fun date => ?_) kept
  subst registry
  exact (holds_save _ _).bind (fun _ => .pure (fun _ h => h) fun _ h => h) kept

end Site

end LanguageHost.Install
