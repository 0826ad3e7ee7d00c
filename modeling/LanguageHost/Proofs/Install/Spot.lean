import LanguageHost.Config.Manifest
import LanguageHost.Proofs.Files.Slot
import LanguageHost.Proofs.Program.Runs

/-! The place of the manifest and of the draft beside it, and what the calls that write a manifest do
there: the manifest changes only at the very end, when the draft takes its place. -/
namespace LanguageHost.Files

theorem Extends.of_alike {fl t t' : Files} (ext : Extends fl t)
    (h : ∀ p x, fl.get? p = some x → (∀ content executable, x ≠ .file content executable) →
      Alike (t.get? p) (t'.get? p)) : Extends fl t' where
  dirs p es there := by
    obtain ⟨es', there'⟩ := ext.dirs p es there
    have alike := h p _ there (by simp)
    rw [there'] at alike
    exact alike.exists_dir
  links p target there := by
    have alike := h p _ there (by simp)
    rw [ext.links p target there] at alike
    exact alike.eq_link

theorem Clear.of_alike {t t' : Files} (clear : Clear t place)
    (h : ∀ p, p <+: place → Alike (t.get? p) (t'.get? p)) : Clear t' place := by
  intro p pre x there
  have alike := h p pre
  rw [there] at alike
  cases before : t.get? p with
  | none =>
      rw [before] at alike
      cases alike.eq_none
  | some y =>
      rw [before] at alike
      rw [← alike.isDirectory]
      exact clear p pre y before

/-- What a new directory adds is a directory. -/
theorem get?_put_new {t x : Files} {q p : List String} (ne : q ≠ [])
    (there : (t.put (some empty) q).get? p = some x) : t.get? p = some x ∨ x.isDirectory = true := by
  by_cases below : q <+: p
  · obtain ⟨r, rfl⟩ := below
    rcases get?_put_below ne (some empty) t r with same | new
    · exact .inl (same ▸ there)
    · rw [there] at new
      cases r with
      | nil =>
          cases new
          exact .inr rfl
      | cons u r => cases new
  · have alike := (alike_put below (some empty) t).symm
    rw [there] at alike
    cases before : t.get? p with
    | none =>
        rw [before] at alike
        cases alike.symm.eq_none
    | some y =>
        rw [before] at alike
        rcases alike with same | ⟨es, es', dir, _⟩
        · exact .inl (by rw [same])
        · cases dir
          exact .inr rfl

/-- A new directory is in the way of nothing that is there for good. -/
theorem Extends.put_new {fl t : Files} {q : List String} (ext : Extends fl t)
    (absent : t.get? q = none) : Extends fl (t.put (some empty) q) := by
  refine ext.of_alike fun p x there leaf => alike_put (fun pre => ?_) _ _
  have gone := get?_below_absent absent pre
  cases x with
  | file content executable => exact leaf content executable rfl
  | dir es =>
      obtain ⟨es', dir⟩ := ext.dirs _ _ there
      rw [gone] at dir
      cases dir
  | link target =>
      rw [ext.links _ _ there] at gone
      cases gone

theorem Clear.put_new {t : Files} {q place : List String} (clear : Clear t place) (ne : q ≠ []) :
    Clear (t.put (some empty) q) place := by
  intro p pre x there
  exact (get?_put_new ne there).elim (clear p pre x) id

/-! Trees that have nothing for good but their root. -/

theorem way_child (n : String) (short : n.utf8ByteSize ≤ nameLimit) : Way empty [.root, .name n] [n] :=
  (.intro (.root .arrived) rfl (by simpa using short) :
    Way empty ([.root] ++ List.map .name [n]) ([] ++ [n]))

theorem extends_empty (es : List (String × Files)) : Extends empty (.dir es) := by
  constructor
  · intro p fs there
    cases p with
    | nil => exact ⟨es, rfl⟩
    | cons n p => cases there
  · intro p target there
    cases p <;> cases there

theorem clear_child {es : List (String × Files)} {n : String}
    (child : ∀ x, Table.get? n es = some x → x.isDirectory = true) : Clear (.dir es) [n] := by
  intro p pre x there
  rcases List.prefix_concat_iff.mp (show p <+: [] ++ [n] from pre) with rfl | inner
  · refine child x ?_
    simpa [get?] using there
  · obtain rfl := List.prefix_nil.mp inner
    cases there
    rfl

end LanguageHost.Files

namespace LanguageHost
open Files

/-- Making directories along a way keeps what a new one at any place of it keeps. -/
theorem Host.makeDirs_keeps {h : Host} {fl : Files} {p : Path} {place : List String}
    {I : Files → Prop} (way : Way fl (h.cwd / p.text).components place)
    (absolute : h.cwd.isAbsolute = true)
    (good : ∀ t, I t → Extends fl t ∧
      ∀ q, q <+: place → q ≠ place → ∀ target, t.get? q ≠ some (.link target))
    (new : ∀ t q, I t → q <+: place → q ≠ [] → t.get? q = none → I (t.put (some empty) q))
    (start : I h.files) : I (h.answer (.makeDirs p)).2.files := by
  rcases h.change_cases fun t => if p.text = "" then .ok t else t.makeDirs (h.absolute p)
    with ⟨_, _, same⟩ | ⟨t, made, _, files⟩
  · exact same ▸ start
  · change I (h.change _).2.files
    rw [files]
    split at made
    · cases made
      exact start
    · next ne =>
        rw [absolute_of_ne ne] at made
        refine way.makeDirs_keeps I (Path.isAbsolute_from absolute p) good ?_ start made
        intro t q ht pre absent
        refine new t q ht pre ?_ absent
        rintro rfl
        cases absent

end LanguageHost

namespace LanguageHost.Install
open Files
open Program (Fallible)

/-- The name of the file that the manifest is written to first. -/
def draftName (file : String) : String := (Path.cutExtension file).1 ++ "." ++ "json.tmp"

/-- The text names an entry of a directory. -/
def IsName (s : String) : Prop := (Path.Component.name s).Ordinary

instance (s : String) : Decidable (IsName s) := inferInstanceAs (Decidable (_ ∧ _))

/-- Nothing, or a file. -/
def AtMostFile (entry : Option Files) : Prop :=
  ∀ x, entry = some x → ∃ content executable, x = .file content executable

theorem atMostFile_none : AtMostFile none := by
  intro x h
  cases h

theorem atMostFile_file (content : Octets) (executable : Bool) :
    AtMostFile (some (.file content executable)) := by
  intro x h
  cases h
  exact ⟨content, executable, rfl⟩

/-- How the path of a manifest lies in a tree. The directories and links in `ground` stay for good; the
directory of the manifest is reached through them, and may be missing at first. -/
structure Spot (manifest : Path) where
  cwd : Path
  ground : Files
  home : List String
  file : String
  absolute : cwd.isAbsolute = true
  slot : Slot ground (cwd / manifest.text) home file
  named : manifest.fileName? = some file
  loose : AtMostFile (ground.get? (home ++ [file]))

namespace Spot
variable {manifest : Path} (s : Spot manifest)

def place : List String := s.home ++ [s.file]

def draft : List String := s.home ++ [draftName s.file]

/-- What holds of the tree at every moment: the ground is there, no file or link has come in the way to
the manifest, and the draft is no link. -/
structure Sound (t : Files) : Prop where
  extends_ground : Extends s.ground t
  home : Clear t s.home
  draft : ∀ target, t.get? s.draft ≠ some (.link target)

/-- The draft stands at most for a file. -/
def Drafted (t : Files) : Prop := AtMostFile (t.get? s.draft)

variable {s} {t t' : Files} {h : Host}

/-! The paths. -/

theorem exists_beginning : ∃ init, Path.parts manifest.text = init ++ [.name s.file] ∧
    Way s.ground (Path.origin s.cwd manifest ++ init) s.home := by
  obtain ⟨init, parts⟩ := Path.exists_parts_of_fileName? s.named
  obtain ⟨cs, components, way⟩ := s.slot.way
  rw [Path.components_from_self s.absolute, parts, ← List.append_assoc] at components
  obtain ⟨rfl, _⟩ := List.append_inj' components rfl
  exact ⟨init, parts, way⟩

theorem file_ordinary : IsName s.file := by
  obtain ⟨init, parts, _⟩ := exists_beginning (s := s)
  exact Path.ordinary_of_mem_parts (parts ▸ List.mem_append_right _ List.mem_cons_self)

theorem draft_ordinary : IsName (draftName s.file) :=
  Path.ordinary_with_ending file_ordinary.2 (by decide) (by decide)

theorem home_way {p : Path} (parent : manifest.parent? = some p) :
    Way s.ground (s.cwd / p.text).components s.home := by
  obtain ⟨init, parts, way⟩ := exists_beginning (s := s)
  have ordinary : ∀ c ∈ init, c.Ordinary := fun c hc =>
    Path.ordinary_of_mem_parts (parts ▸ List.mem_append_left _ hc)
  rw [Path.parent?_eq parts] at parent
  cases parent
  rwa [Path.components_from_ofComponents s.absolute _ (Path.head_ordinary ordinary),
    Path.reading_ordinary ordinary]

theorem draft_components : ∃ cs, (s.cwd / (Manifest.draftPath manifest).text).components =
    cs ++ [.name (draftName s.file)] ∧ Way s.ground cs s.home := by
  obtain ⟨init, parts, way⟩ := exists_beginning (s := s)
  refine ⟨_, ?_, way⟩
  have ordinary : ∀ c ∈ init ++ [.name (draftName s.file)], c.Ordinary := by
    intro c hc
    rcases List.mem_append.mp hc with inner | last
    · exact Path.ordinary_of_mem_parts (parts ▸ List.mem_append_left _ inner)
    · rw [List.mem_singleton.mp last]
      exact draft_ordinary
  have written : Manifest.draftPath manifest =
      Path.ofComponents (manifest.lead ++ (init ++ [.name (draftName s.file)])) := by
    rw [Manifest.draftPath, Path.withExtension_eq parts, if_neg (by decide), draftName]
  rw [written, Path.components_from_ofComponents s.absolute _ (Path.head_ordinary ordinary),
    Path.reading_ordinary ordinary, List.append_assoc]

/-! The places. -/

theorem place_ne_nil : s.place ≠ [] := by simp [place]

theorem draft_ne_nil : s.draft ≠ [] := by simp [draft]

theorem draft_ne_place : s.draft ≠ s.place := by
  intro same
  have names : draftName s.file = s.file := by simpa [place, draft] using same
  exact Path.replaced_ending_ne (by decide) names

theorem place_not_above_draft : ¬ s.place <+: s.draft := fun pre =>
  draft_ne_place (pre.eq_of_length (by simp [place, draft])).symm

theorem draft_not_above_place : ¬ s.draft <+: s.place := fun pre =>
  draft_ne_place (pre.eq_of_length (by simp [place, draft]))

theorem not_above_home {n : String} : ¬ s.home ++ [n] <+: s.home := by
  intro pre
  have shorter := pre.length_le
  rw [List.length_append, List.length_singleton] at shorter
  omega

/-! Changes of the tree. -/

/-- New directories are in nobody's way. -/
theorem Sound.put_new {q : List String} (sound : s.Sound t) (ne : q ≠ []) (absent : t.get? q = none) :
    s.Sound (t.put (some empty) q) where
  extends_ground := sound.extends_ground.put_new absent
  home := sound.home.put_new ne
  draft target there := by
    rcases get?_put_new ne there with before | dir
    · exact sound.draft target before
    · cases dir

/-- The draft comes and goes as a file. -/
theorem extends_put_draft (sound : s.Sound t) (before : s.Drafted t) (entry : Option Files) :
    Extends s.ground (t.put entry s.draft) := by
  refine sound.extends_ground.of_alike fun p x there leaf => alike_put (fun pre => ?_) _ _
  by_cases same : s.draft = p
  · subst same
    cases x with
    | file content executable => exact leaf content executable rfl
    | dir es =>
        obtain ⟨es', dir⟩ := sound.extends_ground.dirs _ _ there
        obtain ⟨content, executable, h⟩ := before _ dir
        cases h
    | link target => exact sound.draft target (sound.extends_ground.links _ _ there)
  · obtain ⟨es, dir⟩ := dir_strictly_above there pre same
    obtain ⟨es', dir'⟩ := sound.extends_ground.dirs _ _ dir
    obtain ⟨content, executable, h⟩ := before _ dir'
    cases h

theorem Sound.put_draft (sound : s.Sound t) (before : s.Drafted t) {entry : Option Files}
    (file : AtMostFile entry) : s.Sound (t.put entry s.draft) where
  extends_ground := extends_put_draft sound before entry
  home := sound.home.of_alike fun p pre =>
    alike_put (fun above => not_above_home (above.trans pre)) _ _
  draft target there := by
    have changed := get?_put_below (draft_ne_nil (s := s)) entry t []
    rw [List.append_nil] at changed
    rcases changed with same | new
    · exact sound.draft target (same ▸ there)
    · rw [there] at new
      cases entry with
      | none => cases new
      | some x =>
          obtain ⟨content, executable, rfl⟩ := file x rfl
          cases new

theorem Drafted.put (drafted : s.Drafted t) {entry : Option Files}
    (file : AtMostFile entry) : s.Drafted (t.put entry s.draft) := by
  intro x there
  have changed := get?_put_below (draft_ne_nil (s := s)) entry t []
  rw [List.append_nil, there] at changed
  rcases changed with same | new
  · exact drafted x same.symm
  · cases entry with
    | none => cases new
    | some y =>
        cases new
        exact file x rfl

theorem Sound.put_place (sound : s.Sound t) (entry : Option Files) :
    s.Sound (t.put entry s.place) where
  extends_ground := by
    refine sound.extends_ground.of_alike fun p x there leaf => alike_put (fun pre => ?_) _ _
    by_cases same : s.place = p
    · subst same
      obtain ⟨content, executable, rfl⟩ := s.loose x there
      exact leaf content executable rfl
    · obtain ⟨es, dir⟩ := dir_strictly_above there pre same
      obtain ⟨content, executable, file⟩ := s.loose _ dir
      cases file
  home := sound.home.of_alike fun p pre =>
    alike_put (fun above => not_above_home (above.trans pre)) _ _
  draft target there := by
    rw [get?_put_apart place_not_above_draft draft_not_above_place] at there
    exact sound.draft target there

/-! Where the paths lead. -/

theorem draft_located {follow : Bool} {ns : List String} (sound : s.Sound t)
    (found : t.locate follow (s.cwd / (Manifest.draftPath manifest).text) = .ok ns) :
    ns = s.draft ∧ ∃ es, t.get? s.home = some (.dir es) := by
  obtain ⟨cs, components, way⟩ := draft_components (s := s)
  rw [locate_eq (check_of_locate found), components] at found
  constructor
  · exact way.walk_ok sound.extends_ground _ sound.home.unlinked (fun _ => sound.draft) found
  · cases base : t.get? s.home with
    | none =>
        rw [way.walk_missing sound.extends_ground sound.home base (by simp)] at found
        cases found
    | some x =>
        obtain ⟨es, dir⟩ := sound.home.dir base
        exact ⟨es, base ▸ dir⟩

theorem manifest_located {ns : List String} (sound : s.Sound t)
    (found : t.locate false (s.cwd / manifest.text) = .ok ns) : ns = s.place := by
  obtain ⟨cs, components, way⟩ := s.slot.way
  rw [locate_eq (check_of_locate found), components] at found
  exact way.walk_ok sound.extends_ground _ sound.home.unlinked (fun follows => by cases follows) found

/-! The calls. -/

section calls
variable (here : h.cwd = s.cwd) (sound : s.Sound h.files)
include here

/-- What a new directory above the manifest keeps is kept. -/
theorem makeHome_keeps {I : Files → Prop} {p : Path} (parent : manifest.parent? = some p)
    (good : ∀ t, I t → s.Sound t)
    (new : ∀ t q, I t → q <+: s.home → q ≠ [] → t.get? q = none → I (t.put (some empty) q))
    (start : I h.files) : I (h.answer (.makeDirs p)).2.files := by
  have way := home_way (s := s) parent
  rw [← here] at way
  refine Host.makeDirs_keeps way (here ▸ s.absolute) (fun t ht => ⟨(good t ht).extends_ground, ?_⟩)
    new start
  exact fun q pre _ => (good t ht).home.unlinked q pre

include sound

/-- The draft is written as a whole, or the call is refused and nothing has happened. -/
theorem write_draft_cases (content : Octets) :
    let r := h.answer (.writeFile (Manifest.draftPath manifest) content)
    (∃ e, r.1 = .error e ∧ r.2.files = h.files) ∨
      ∃ executable, r.1 = .ok () ∧ s.Drafted h.files ∧ (∃ es, h.files.get? s.home = some (.dir es)) ∧
        r.2.files = h.files.put (some (.file content executable)) s.draft := by
  rcases h.change_cases fun t => t.write (h.absolute (Manifest.draftPath manifest)) content
    with ⟨e, refused, same⟩ | ⟨t, made, ok, files⟩
  · exact .inl ⟨e, refused, same⟩
  · obtain ⟨ns, executable, found, notDir, rfl⟩ := write_cases made
    obtain ⟨rfl, parent⟩ := draft_located sound (here ▸ locate_of_absolute found)
    refine .inr ⟨executable, ok, fun x there => ?_, parent, files⟩
    cases x with
    | dir es => exact absurd there (notDir es)
    | file content executable => exact ⟨content, executable, rfl⟩
    | link target => exact absurd there (sound.draft target)

/-- The draft becomes the manifest, or the call is refused and nothing has happened. -/
theorem replace_cases :
    let r := h.answer (.rename (Manifest.draftPath manifest) manifest)
    (∃ e, r.1 = .error e ∧ r.2.files = h.files) ∨
      ∃ x, r.1 = .ok () ∧ h.files.get? s.draft = some x ∧
        r.2.files = (h.files.put none s.draft).put (some x) s.place := by
  rcases h.change_cases fun t =>
      t.rename (h.absolute (Manifest.draftPath manifest)) (h.absolute manifest)
    with ⟨e, refused, same⟩ | ⟨t, made, ok, files⟩
  · exact .inl ⟨e, refused, same⟩
  · obtain ⟨source, target, from_draft, to_manifest, moved⟩ := rename_cases made
    obtain ⟨rfl, _⟩ := draft_located sound (here ▸ locate_of_absolute from_draft)
    obtain rfl := manifest_located sound (here ▸ locate_of_absolute to_manifest)
    rcases moved with ⟨same, _⟩ | ⟨x, there, rfl⟩
    · exact absurd same draft_ne_place
    · exact .inr ⟨x, ok, there, files⟩

end calls

/-- Publishing keeps what new directories above the manifest and a new draft keep, and ends well only
when the draft has become the manifest. -/
theorem holds_publish {fair : Fairness} {I R : Files → Prop} (text : String)
    (here : ∀ β h c, fair β h c → h.cwd = s.cwd) (good : ∀ t, I t → s.Sound t)
    (new : ∀ t q, I t → q <+: s.home → q ≠ [] → t.get? q = none → I (t.put (some empty) q))
    (draft : ∀ t executable, I t → s.Drafted t →
      I (t.put (some (.file (Utf8.ofString text) executable)) s.draft))
    (place : ∀ t executable, I t → s.Drafted t → (∃ es, t.get? s.home = some (.dir es)) →
      R ((t.put none s.draft).put (some (.file (Utf8.ofString text) executable)) s.place)) :
    Fallible.Holds fair I (Manifest.publish manifest text) (fun _ => R) I fun t => I t ∨ R t := by
  let Written : Files → Prop := fun t => I t ∧ s.Drafted t ∧
    (∃ es, t.get? s.home = some (.dir es)) ∧
    ∃ executable, t.get? s.draft = some (.file (Utf8.ofString text) executable)
  have write : Fallible.Holds fair I
      (Program.io (Program.writeText (Manifest.draftPath manifest) text)) (fun _ => Written) I
      fun t => I t ∨ R t := by
    refine .io (fun h start allowed => ?_) (fun _ => .inl) (fun _ _ h => .inl h.1) fun _ => .inl
    rcases write_draft_cases (here _ _ _ allowed) (good _ start) (Utf8.ofString text)
      with ⟨e, refused, same⟩ | ⟨executable, ok, drafted, ⟨es, parent⟩, files⟩
    · refine ⟨fun a done => ?_, fun e' _ => same ▸ start⟩
      cases refused.symm.trans done
    · refine ⟨fun a _ => ?_, fun e' failed => ?_⟩
      · change Written (h.answer (.writeFile _ _)).2.files
        rw [files]
        refine ⟨draft _ executable start drafted, drafted.put (atMostFile_file _ _), dir_put_above parent _ _,
          executable, get?_put_some parent _ _⟩
      · cases ok.symm.trans failed
  have replace : Fallible.Holds fair Written
      (Program.io (.rename (Manifest.draftPath manifest) manifest)) (fun _ => R) I
      fun t => I t ∨ R t := by
    refine .io (fun h start allowed => ?_) (fun _ h => .inl h.1) (fun _ _ => .inr) fun _ => .inl
    obtain ⟨held, drafted, parent, executable, written⟩ := start
    rcases replace_cases (here _ _ _ allowed) (good _ held)
      with ⟨e, refused, same⟩ | ⟨x, ok, there, files⟩
    · refine ⟨fun a done => ?_, fun e' _ => same ▸ held⟩
      cases refused.symm.trans done
    · refine ⟨fun a _ => ?_, fun e' failed => ?_⟩
      · rw [files]
        cases written.symm.trans there
        exact place _ executable held drafted parent
      · cases ok.symm.trans failed
  have rest := write.bind (fun _ => replace) fun _ => .inl
  unfold Manifest.publish
  cases parent : manifest.parent? with
  | none => exact rest
  | some p =>
      refine Fallible.Holds.bind (.io (fun h start allowed => ?_) (fun _ => .inl) (fun _ _ => .inl)
        fun _ => .inl) (fun _ => rest) fun _ => .inl
      have after := makeHome_keeps (here _ _ _ allowed) parent good new start
      exact ⟨fun _ _ => after, fun _ _ => after⟩

end Spot

end LanguageHost.Install
