import LanguageHost.Install.Installer
import LanguageHost.Proofs.Install.Spot

/-! Where an install takes place: the entry's directory, the place beside it where the install before is
kept, and the manifest. What lies around them stays as it is, whatever happens inside the directory. -/
namespace LanguageHost.Install
open Files

/-- The name under which the install before is kept. -/
def asideName (name : String) : String := "." ++ name ++ ".previous"

/-- How the paths of an install lie in a tree. The directories and links in `ground` stay for good; the
directories of the servers and of the manifest are reached through them, and may be missing at first. -/
structure Site (servers : Path) (name : String) (manifest : Path) where
  cwd : Path
  ground : Files
  base : List String
  home : List String
  file : String
  absolute : cwd.isAbsolute = true
  name_ordinary : IsName name
  name_short : name.utf8ByteSize ≤ nameLimit
  place_written : check (cwd / (servers / name).text) = .ok ()
  servers_way : Way ground (cwd / servers.text).components base
  manifest_slot : Slot ground (cwd / manifest.text) home file
  manifest_file : manifest.fileName? = some file
  place_loose : ground.get? (base ++ [name]) = none
  aside_loose : ground.get? (base ++ [asideName name]) = none
  manifest_loose : ∀ x, ground.get? (home ++ [file]) = some x →
    ∃ content executable, x = .file content executable
  apart : ∀ s ∈ [name, asideName name], ∀ r ∈ [file, draftName file],
    ¬ base ++ [s] <+: home ++ [r] ∧ ¬ home ++ [r] <+: base ++ [s]

namespace Site
variable {servers : Path} {name : String} {manifest : Path} (s : Site servers name manifest)

def place : List String := s.base ++ [name]

def aside : List String := s.base ++ [asideName name]

def manifestPlace : List String := s.home ++ [s.file]

def draftPlace : List String := s.home ++ [draftName s.file]

/-- What holds of the tree outside of the directory at every moment of an install: the ground is there,
no file or link has come in the way to the servers or the manifest, and the draft is no link. -/
structure Sound (t : Files) : Prop where
  extends_ground : Extends s.ground t
  base : Clear t s.base
  home : Clear t s.home
  draft : ∀ target, t.get? s.draftPlace ≠ some (.link target)

/-- The place of the manifest alone. -/
def spot : Spot manifest where
  cwd := s.cwd
  ground := s.ground
  home := s.home
  file := s.file
  absolute := s.absolute
  slot := s.manifest_slot
  named := s.manifest_file
  loose := s.manifest_loose

variable {s} {t t' : Files}

theorem Sound.spot (sound : s.Sound t) : s.spot.Sound t :=
  ⟨sound.extends_ground, sound.home, sound.draft⟩

theorem sound_of_spot (sound : s.spot.Sound t) (base : Clear t s.base) : s.Sound t :=
  ⟨sound.extends_ground, base, sound.home, sound.draft⟩

theorem place_ne_nil : s.place ≠ [] := by simp [place]

theorem aside_ne_nil : s.aside ≠ [] := by simp [aside]

theorem not_above_base {n : String} : ¬ s.base ++ [n] <+: s.base := by
  intro pre
  have shorter := pre.length_le
  rw [List.length_append, List.length_singleton] at shorter
  omega

theorem not_above_home {n : String} (h : n ∈ [name, asideName name]) : ¬ s.base ++ [n] <+: s.home :=
  fun pre => (s.apart n h s.file (by simp)).1 (pre.trans (List.prefix_append _ _))

/-- Nothing changes for the tree outside when only a place off all of it changes. -/
theorem Sound.of_alike (sound : s.Sound t)
    (h : ∀ p, (p <+: s.base ∨ p <+: s.home ∨ p = s.draftPlace ∨ ∃ x, s.ground.get? p = some x ∧
      ∀ content executable, x ≠ .file content executable) → Alike (t.get? p) (t'.get? p)) :
    s.Sound t' where
  extends_ground := sound.extends_ground.of_alike fun p x there leaf =>
    h p (.inr (.inr (.inr ⟨x, there, leaf⟩)))
  base := sound.base.of_alike fun p pre => h p (.inl pre)
  home := sound.home.of_alike fun p pre => h p (.inr (.inl pre))
  draft target there := by
    have alike := (h s.draftPlace (.inr (.inr (.inl rfl)))).symm
    rw [there] at alike
    exact sound.draft target alike.eq_link

/-- A place off the way to the directories and off the draft, where the ground has at most a file. -/
structure Off (s : Site servers name manifest) (q : List String) : Prop where
  base : ¬ q <+: s.base
  home : ¬ q <+: s.home
  draft : ¬ q <+: s.draftPlace
  loose : ∀ x, s.ground.get? q = some x → ∃ content executable, x = .file content executable

theorem Off.ground {q p : List String} (off : s.Off q) (there : s.ground.get? p = some x)
    (leaf : ∀ content executable, x ≠ .file content executable) : ¬ q <+: p := by
  intro pre
  by_cases same : q = p
  · obtain ⟨content, executable, rfl⟩ := off.loose x (same ▸ there)
    exact leaf content executable rfl
  · obtain ⟨es, dir⟩ := dir_strictly_above there pre same
    obtain ⟨content, executable, file⟩ := off.loose _ dir
    cases file

theorem Sound.of_alike_off {q : List String} (sound : s.Sound t) (off : s.Off q)
    (h : ∀ p, ¬ q <+: p → Alike (t.get? p) (t'.get? p)) : s.Sound t' := by
  refine sound.of_alike fun p hp => h p ?_
  rcases hp with pre | pre | rfl | ⟨x, there, leaf⟩
  · exact fun above => off.base (above.trans pre)
  · exact fun above => off.home (above.trans pre)
  · exact off.draft
  · exact off.ground there leaf

theorem off_place : s.Off s.place where
  base := not_above_base
  home := not_above_home (by simp)
  draft := (s.apart name (by simp) _ (by simp)).1
  loose x there := by
    rw [place, s.place_loose] at there
    cases there

theorem off_aside : s.Off s.aside where
  base := not_above_base
  home := not_above_home (by simp)
  draft := (s.apart _ (by simp) _ (by simp)).1
  loose x there := by
    rw [aside, s.aside_loose] at there
    cases there

theorem Sound.put_off {q : List String} (sound : s.Sound t) (off : s.Off q) (entry : Option Files) :
    s.Sound (t.put entry q) :=
  sound.of_alike_off off fun _ h => alike_put h entry t

theorem Sound.of_without (sound : s.Sound t) (same : t'.put none s.place = t.put none s.place) :
    s.Sound t' :=
  sound.of_alike_off off_place fun _ h => alike_of_without h same

theorem off_manifest : s.Off s.manifestPlace where
  base pre := (s.apart name (by simp) s.file (by simp)).2 (pre.trans (List.prefix_append _ _))
  home := Spot.not_above_home (s := s.spot)
  draft := Spot.place_not_above_draft (s := s.spot)
  loose := s.manifest_loose

theorem Sound.put_draft (sound : s.Sound t) {entry : Option Files} (file : AtMostFile entry)
    (before : s.spot.Drafted t) : s.Sound (t.put entry s.draftPlace) := by
  refine sound_of_spot (sound.spot.put_draft before file) ?_
  refine sound.base.of_alike fun p pre => alike_put (fun above => ?_) _ _
  exact (s.apart name (by simp) _ (by simp)).2 ((above.trans pre).trans (List.prefix_append _ _))

theorem Sound.put_new {q : List String} (sound : s.Sound t) (ne : q ≠ []) (absent : t.get? q = none) :
    s.Sound (t.put (some empty) q) :=
  sound_of_spot (sound.spot.put_new ne absent) (sound.base.put_new ne)

/-- The directory is nothing that leads elsewhere: neither it nor the files in it that the install writes
itself are links, and its entries have names. -/
structure Calm (s : Site servers name manifest) (own : List String) (t : Files) : Prop where
  place : ∀ target, t.get? s.place ≠ some (.link target)
  own : ∀ n ∈ own, ∀ target, t.get? (s.place ++ [n]) ≠ some (.link target)
  names : ∀ es, t.get? s.place = some (.dir es) → ∀ n ∈ Table.keys es, IsName n

/-- All that changes is in the directory, which stays calm. -/
def Inside (s : Site servers name manifest) (own : List String) (t t' : Files) : Prop :=
  t'.put none s.place = t.put none s.place ∧ (s.Calm own t → s.Calm own t')

end Site

/-! An attempt under way: the directory changes, and with the calls that an attempt makes nothing else
does that an install depends on. -/

theorem IsName.relative {n : String} (h : IsName n) : (Path.mk n).isAbsolute = false :=
  Path.relative_name h

theorem IsName.parts {n : String} (h : IsName n) : Path.parts n = [.name n] := Path.parts_text h

theorem IsName.asideName {n : String} (h : IsName n) : IsName (asideName n) := by
  constructor
  · refine Path.component?_of_long ?_
    change 2 < ("." ++ n ++ ".previous").length
    rw [String.length_append]
    have : ".previous".length = 9 := by decide
    omega
  · change '/' ∉ ("." ++ n ++ ".previous").toList
    simp only [String.toList_append, List.mem_append, not_or]
    exact ⟨⟨by decide, h.2⟩, by decide⟩

theorem asideName_ne (n : String) : asideName n ≠ n := by
  intro same
  have length := congrArg String.length same
  rw [asideName, String.length_append, String.length_append] at length
  have : ".previous".length = 9 := by decide
  omega

namespace Site
variable {servers : Path} {name : String} {manifest : Path} {s : Site servers name manifest}
  {t t' : Files}

theorem place_not_above_aside : ¬ s.place <+: s.aside := by
  intro pre
  have same := pre.eq_of_length (by simp [place, aside])
  exact asideName_ne name (by simpa [place, aside] using same.symm)

theorem aside_not_above_place : ¬ s.aside <+: s.place := by
  intro pre
  have same := pre.eq_of_length (by simp [place, aside])
  exact asideName_ne name (by simpa [place, aside] using same)

theorem place_apart_manifest : ¬ s.place <+: s.manifestPlace ∧ ¬ s.manifestPlace <+: s.place :=
  s.apart name (by simp) s.file (by simp)

theorem aside_apart_manifest : ¬ s.aside <+: s.manifestPlace ∧ ¬ s.manifestPlace <+: s.aside :=
  s.apart _ (by simp) s.file (by simp)

/-- While an attempt runs, the install before is at its place aside and the manifest is as it was. -/
structure Underway (s : Site servers name manifest) (own : List String)
    (kept before : Option Files) (t : Files) : Prop where
  sound : s.Sound t
  calm : s.Calm own t
  aside : t.get? s.aside = kept
  manifest : t.get? s.manifestPlace = before

variable {own : List String} {kept before : Option Files}

theorem Underway.of_inside (h : s.Underway own kept before t) (inside : s.Inside own t t') :
    s.Underway own kept before t' where
  sound := h.sound.of_without inside.1
  calm := inside.2 h.calm
  aside := by
    rw [get?_of_without place_not_above_aside aside_not_above_place inside.1, h.aside]
  manifest := by
    rw [get?_of_without place_apart_manifest.1 place_apart_manifest.2 inside.1, h.manifest]

/-- Nothing, a file, or an empty directory: what an install puts in place itself. -/
def Bare (entry : Option Files) : Prop :=
  ∀ x, entry = some x → x = empty ∨ ∃ content executable, x = .file content executable

theorem bare_none : Bare none := by
  intro x h
  cases h

theorem bare_file (content : Octets) (executable : Bool) : Bare (some (.file content executable)) := by
  intro x h
  cases h
  exact .inr ⟨content, executable, rfl⟩

theorem bare_empty : Bare (some empty) := by
  intro x h
  cases h
  exact .inl rfl

theorem Bare.not_link {entry : Option Files} (bare : Bare entry) (r : List String) (target : Path) :
    entry.bind (·.get? r) ≠ some (.link target) := by
  cases entry with
  | none => simp
  | some x =>
      rcases bare x rfl with rfl | ⟨content, executable, rfl⟩ <;> cases r <;>
        simp [get?, empty, Table.get?]

theorem Bare.no_names {entry : Option Files} {es : List (String × Files)} (bare : Bare entry)
    (h : entry = some (.dir es)) : es = [] := by
  rcases bare _ h with dir | ⟨content, executable, file⟩
  · cases dir
    rfl
  · cases file

theorem inside_put_place {entry : Option Files} (bare : Bare entry) :
    s.Inside own t (t.put entry s.place) := by
  have changed := get?_put_below (place_ne_nil (s := s)) entry t
  have here := changed []
  rw [List.append_nil] at here
  refine ⟨?_, fun calm => ⟨?_, ?_, ?_⟩⟩
  · have same := put_none_put_below (place_ne_nil (s := s)) entry t []
    rwa [List.append_nil] at same
  · intro target there
    rw [there] at here
    rcases here with same | new
    · exact calm.place target same.symm
    · exact bare.not_link [] target new.symm
  · intro n hn target there
    have below := changed [n]
    rw [there] at below
    rcases below with same | new
    · exact calm.own n hn target same.symm
    · exact bare.not_link [n] target new.symm
  · intro es there n hn
    rw [there] at here
    rcases here with same | new
    · exact calm.names es same.symm n hn
    · have whole : entry = some (.dir es) := by simpa [get?] using new.symm
      rw [bare.no_names whole] at hn
      cases hn

theorem inside_put_entry {entry : Option Files} {n : String} (hn : IsName n) (bare : Bare entry) :
    s.Inside own t (t.put entry (s.place ++ [n])) := by
  have ne : s.place ++ [n] ≠ [] := by simp
  have above := get?_put_above entry t s.place n
  refine ⟨put_none_put_below place_ne_nil entry t [n], fun calm => ⟨?_, ?_, ?_⟩⟩
  · intro target there
    rw [there] at above
    obtain ⟨x, before, changed⟩ := Option.map_eq_some_iff.mp above.symm
    have kind := put_isDirectory entry x n []
    rw [changed] at kind
    rw [put_leaf kind.symm] at changed
    exact calm.place target (changed ▸ before)
  · intro m hm target there
    by_cases same : m = n
    · subst m
      have here := get?_put_below ne entry t []
      rw [List.append_nil, there] at here
      rcases here with old | new
      · exact calm.own n hm target old.symm
      · exact bare.not_link [] target new.symm
    · have different : ∀ a b : String, a ≠ b → ¬ s.place ++ [a] <+: s.place ++ [b] := by
        intro a b other pre
        exact other (by simpa using pre.eq_of_length (by simp))
      rw [get?_put_apart (different n m (Ne.symm same)) (different m n same)] at there
      exact calm.own m hm target there
  · intro es there m hm
    rw [there] at above
    obtain ⟨x, before, changed⟩ := Option.map_eq_some_iff.mp above.symm
    cases x with
    | file content executable =>
        rw [put_leaf rfl] at changed
        cases changed
    | link target =>
        rw [put_leaf rfl] at changed
        cases changed
    | dir fs =>
        rw [put_last] at changed
        cases entry with
        | none =>
            cases changed
            exact calm.names fs before m (Table.mem_keys_of_mem_keys_erase hm)
        | some y =>
            cases changed
            rcases Table.mem_keys_of_mem_keys_insert hm with rfl | old
            · exact hn
            · exact calm.names fs before m old

/-- A directory made where nothing was, above the directory of the install or beside it. -/
theorem Underway.put_new {q : List String} (h : s.Underway own kept before t) (ne : q ≠ [])
    (absent : t.get? q = none) (aside : ¬ s.aside <+: q) (place : ¬ s.place <+: q)
    (manifest : ¬ s.manifestPlace <+: q) : s.Underway own kept before (t.put (some empty) q) where
  sound := h.sound.put_new ne absent
  calm := by
    have same : ∀ r, ¬ s.place ++ r <+: q := fun r pre =>
      place ((List.prefix_append _ r).trans pre)
    have here := get?_put_empty ne absent place
    refine ⟨?_, ?_, ?_⟩
    · rw [here]
      exact h.calm.place
    · intro n hn
      rw [get?_put_empty ne absent (same [n])]
      exact h.calm.own n hn
    · rw [here]
      exact h.calm.names
  aside := by rw [get?_put_empty ne absent aside, h.aside]
  manifest := by rw [get?_put_empty ne absent manifest, h.manifest]

end Site

end LanguageHost.Install
