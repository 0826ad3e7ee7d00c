import LanguageHost.Proofs.Install.Site

/-! Everything that a backend does stays in the directory of its install: its own calls by the paths that
they are made with, and its tools because they are supposed to. -/
namespace LanguageHost.Install
open Files

/-- The files in its directory that an install writes itself, and no tool for it. -/
def ownFiles : InstallMethod → List String
  | .package p =>
    match p.ecosystem with
    | .npm => [".npmrc"]
    | .pypi => [Pip.requirementsFile]
    | _ => []
  | .binaryDownload _ url =>
    match Release.assetName? url with
    | some asset => [asset, (Path.cutExtension asset).1]
    | none => []
  | _ => []

namespace Site
variable {servers : Path} {name : String} {manifest : Path}

/-- Where the entry is installed, as a path. -/
def path (_ : Site servers name manifest) : Path := servers / name

def asidePath (_ : Site servers name manifest) : Path := servers / asideName name

/-- The calls that move or remove the directory, or the install kept aside. -/
def Moves (s : Site servers name manifest) : Call β → Prop
  | .removeTree p | .removeFile p => p = s.path ∨ p = s.asidePath
  | .rename p q => p = s.path ∧ q = s.asidePath ∨ p = s.asidePath ∧ q = s.path
  | _ => False

/-- The machines that an install is made for. Its tools change only what is in the directory, and put no
link there for one of the files that the install writes itself; its own removals and renames of the
directory succeed. All else may fail, be cancelled or change between any two calls. -/
structure Fair (s : Site servers name manifest) (own : List String) (β : Type) (h : Host)
    (c : Call β) : Prop where
  cwd : h.cwd = s.cwd
  tools : c.IsRun → s.Inside own h.files (h.answer c).2.files
  moves : s.Moves c → h.faults h.operations = none

variable {s : Site servers name manifest} {t t' : Files} {own : List String}
  {kept before : Option Files}

/-! Paths below the directory, and where they lead. -/

theorem path_components :
    (s.cwd / s.path.text).components = (s.cwd / servers.text).components ++ [.name name] := by
  rw [path, Path.components_from s.absolute s.name_ordinary.relative, s.name_ordinary.parts]

theorem path_way : Way s.ground (s.cwd / s.path.text).components s.place := by
  rw [path_components]
  exact s.servers_way.child s.name_short

theorem place_slot : Slot s.ground (s.cwd / s.path.text) s.base name where
  written := s.place_written
  short := s.name_short
  way := ⟨_, path_components, s.servers_way⟩

/-- A path is for the directory, for what is above it, or for an entry of it. -/
def Tail (p : Path) (tail : List Path.Component) (s : Site servers name manifest) : Prop :=
  (s.cwd / p.text).components = (s.cwd / s.path.text).components ++ tail ∧
    (tail = [] ∨ tail = [.parent] ∨ ∃ n, tail = [.name n] ∧ IsName n)

theorem tail_of_isName {n : String} (hn : IsName n) : Tail (s.path / n) [.name n] s := by
  constructor
  · rw [Path.components_from s.absolute hn.relative, hn.parts]
  · exact .inr (.inr ⟨n, rfl, hn⟩)

theorem absolute_eq {p : Path} (ne : p.text ≠ "") {h : Host} {c : Call β} (fair : s.Fair own β h c) :
    h.absolute p = s.cwd / p.text := by
  rw [Host.absolute, if_neg ne, fair.cwd]

theorem absolute_of_locate {h : Host} {p : Path} {ns : List String} {follow : Bool}
    (hcwd : h.cwd = s.cwd) (found : t.locate follow (h.absolute p) = .ok ns) :
    t.locate follow (s.cwd / p.text) = .ok ns :=
  hcwd ▸ locate_of_absolute found

theorem locate_tail {p : Path} {tail : List Path.Component} {ns : List String} {follow : Bool}
    (sound : s.Sound t) (calm : s.Calm own t) (hp : Tail p tail s)
    (plain : follow = true → ∀ n, tail = [.name n] → n ∈ own)
    (found : t.locate follow (s.cwd / p.text) = .ok ns) :
    ns = s.place ∨ (∃ n, tail = [.name n] ∧ IsName n ∧ ns = s.place ++ [n]) ∨
      ∃ es, tail = [.parent] ∧ t.get? ns = some (.dir es) := by
  obtain ⟨components, shape⟩ := hp
  rw [locate_eq (check_of_locate found), components] at found
  rcases shape with rfl | rfl | ⟨n, rfl, hn⟩
  · rw [List.append_nil, path_components] at found
    exact .inl (s.servers_way.walk_ok sound.extends_ground name sound.base.unlinked
      (fun _ => calm.place) found)
  · rw [path_components, List.append_assoc] at found
    cases hbase : t.get? s.base with
    | none =>
        rw [s.servers_way.walk_missing sound.extends_ground sound.base hbase (by simp)] at found
        cases found
    | some x =>
        obtain ⟨es, there⟩ := sound.base.dir hbase
        obtain ⟨k, walked⟩ := s.servers_way.walk_dir sound.extends_ground there follow
          ([.name name] ++ [.parent]) (.inl (by simp))
        rw [walked] at found
        rcases walk_name_cases found with ⟨fs, _, up⟩ | ⟨target, link, _⟩ | ⟨last, _⟩
        · change t.walk follow k (s.base ++ [name]) [.parent] = .ok ns at up
          rw [walk, walk, List.dropLast_concat] at up
          cases up
          exact .inr (.inr ⟨es, rfl, there⟩)
        · exact absurd link (calm.place target)
        · cases last
  · have unlinked : Unlinked t s.place := by
      intro q pre
      rcases List.prefix_concat_iff.mp pre with rfl | inner
      · exact calm.place
      · exact sound.base.unlinked q inner
    exact .inr (.inl ⟨n, rfl, hn, path_way.walk_ok sound.extends_ground n unlinked
      (fun follows => calm.own n (plain follows n rfl)) found⟩)

/-! The calls, one by one. -/

section calls
variable {p : Path} {tail : List Path.Component}

/-- A change at the end of a path below the directory is one inside of it. -/
theorem Underway.put_tail {ns : List String} {entry : Option Files}
    (h : s.Underway own kept before t) (bare : Bare entry)
    (at_place : ns = s.place ∨ ∃ n, IsName n ∧ ns = s.place ++ [n]) :
    s.Underway own kept before (t.put entry ns) := by
  rcases at_place with rfl | ⟨n, hn, rfl⟩
  · exact h.of_inside (inside_put_place bare)
  · exact h.of_inside (inside_put_entry hn bare)

theorem keeps_write (hp : Tail p tail s) (plain : ∀ n, tail = [.name n] → n ∈ own)
    (content : Octets) :
    (Call.writeFile p content).Keeps (s.Fair own) (s.Underway own kept before) := by
  intro h start fair
  rcases h.change_cases fun t => t.write (h.absolute p) content with ⟨_, _, same⟩ | ⟨t, made, _, files⟩
  · exact same ▸ start
  · obtain ⟨ns, executable, found, notDir, rfl⟩ := write_cases made
    change s.Underway own kept before (h.change _).2.files
    rw [files]
    refine start.put_tail (bare_file content executable) ?_
    rcases locate_tail start.sound start.calm hp (fun _ => plain) (absolute_of_locate fair.cwd found)
      with here | ⟨n, _, hn, here⟩ | ⟨es, _, dir⟩
    · exact .inl here
    · exact .inr ⟨n, hn, here⟩
    · exact absurd dir (notDir es)

theorem keeps_allowRun (hp : Tail p tail s) (plain : ∀ n, tail = [.name n] → n ∈ own) :
    (Call.allowRun p).Keeps (s.Fair own) (s.Underway own kept before) := by
  intro h start fair
  rcases h.change_cases fun t => t.allowRun (h.absolute p) with ⟨_, _, same⟩ | ⟨t, made, _, files⟩
  · exact same ▸ start
  · change s.Underway own kept before (h.change _).2.files
    rw [files]
    rcases allowRun_cases made with rfl | ⟨ns, content, executable, found, there, rfl⟩
    · exact start
    · refine start.put_tail (bare_file content true) ?_
      rcases locate_tail start.sound start.calm hp (fun _ => plain)
        (absolute_of_locate fair.cwd found) with here | ⟨n, _, hn, here⟩ | ⟨es, _, dir⟩
      · exact .inl here
      · exact .inr ⟨n, hn, here⟩
      · rw [there] at dir
        cases dir

/-- Removing an entry of the directory. -/
theorem keeps_remove {n : String} (hn : IsName n) :
    Installing.Keeps (s.Fair own) (s.Underway own kept before) (Installing.remove (s.path / n)) := by
  have gone : ∀ (h : Host) (f : Files → Except IoError Files), s.Underway own kept before h.files →
      h.cwd = s.cwd → (∀ t, f h.files = .ok t → ∃ ns,
        h.files.locate false (h.absolute (s.path / n)) = .ok ns ∧ t = h.files.put none ns) →
      s.Underway own kept before (h.change f).2.files := by
    intro h f start hcwd removes
    rcases h.change_cases f with ⟨_, _, same⟩ | ⟨t, made, _, files⟩
    · exact same ▸ start
    · rw [files]
      obtain ⟨ns, found, rfl⟩ := removes t made
      refine start.put_tail bare_none ?_
      rcases locate_tail start.sound start.calm (tail_of_isName hn) (fun follows => by cases follows)
        (absolute_of_locate hcwd found) with here | ⟨m, _, hm, here⟩ | ⟨es, up, _⟩
      · exact .inl here
      · exact .inr ⟨m, hm, here⟩
      · cases up
  have tree : (Call.removeTree (s.path / n)).Keeps (s.Fair own) (s.Underway own kept before) :=
    fun h start fair => gone h _ start fair.cwd fun t made => removeTree_cases made
  have file : (Call.removeFile (s.path / n)).Keeps (s.Fair own) (s.Underway own kept before) :=
    fun h start fair => gone h _ start fair.cwd fun t made => removeFile_cases made
  refine .bind (.lift (.removePath tree file)) fun r => ?_
  cases r with
  | ok u => exact .pure _
  | error e => exact .fail _

/-- Making directories along a way keeps what a new one at any place of it keeps. -/
theorem keeps_makeDirs_way {I : Files → Prop} {place : List String}
    (way : Way s.ground (s.cwd / p.text).components place)
    (good : ∀ t, I t → s.Sound t ∧
      ∀ q, q <+: place → q ≠ place → ∀ target, t.get? q ≠ some (.link target))
    (new : ∀ t q, I t → q <+: place → q ≠ [] → t.get? q = none → I (t.put (some empty) q)) :
    (Call.makeDirs p).Keeps (s.Fair own) I := by
  intro h start fair
  rw [← fair.cwd] at way
  exact Host.makeDirs_keeps way (fair.cwd ▸ s.absolute)
    (fun t ht => ⟨(good t ht).1.extends_ground, (good t ht).2⟩) new start

/-- A place on the way to the servers is not above what an install depends on. -/
theorem Underway.put_base {q : List String} (h : s.Underway own kept before t) (pre : q <+: s.base)
    (ne : q ≠ []) (absent : t.get? q = none) : s.Underway own kept before (t.put (some empty) q) := by
  have up : ∀ n, q <+: s.base ++ [n] := fun n => pre.trans (List.prefix_append _ _)
  refine h.put_new ne absent ?_ ?_ ?_
  · exact fun above => not_above_base (above.trans pre)
  · exact fun above => not_above_base (above.trans pre)
  · exact fun above => place_apart_manifest.2 (above.trans (up name))

theorem Underway.put_above {q : List String} (h : s.Underway own kept before t) (pre : q <+: s.place)
    (absent : t.get? q = none) : s.Underway own kept before (t.put (some empty) q) := by
  have ne : q ≠ [] := by
    rintro rfl
    cases absent
  rcases List.prefix_concat_iff.mp pre with rfl | inner
  · exact h.of_inside (inside_put_place bare_empty)
  · exact h.put_base inner ne absent

theorem keeps_makeDirs :
    (Call.makeDirs s.path).Keeps (s.Fair own) (s.Underway own kept before) := by
  refine keeps_makeDirs_way path_way (fun t ht => ⟨ht.sound, fun q pre strict => ?_⟩)
    fun t q ht pre _ absent => ht.put_above pre absent
  rcases List.prefix_concat_iff.mp pre with rfl | inner
  · exact absurd rfl strict
  · exact ht.sound.base.unlinked q inner

theorem keeps_makeDirs_entry {n : String} (hn : IsName n) (short : n.utf8ByteSize ≤ nameLimit) :
    (Call.makeDirs (s.path / n)).Keeps (s.Fair own) (s.Underway own kept before) := by
  have way := path_way (s := s).child short
  rw [← (tail_of_isName hn).1] at way
  refine keeps_makeDirs_way way (fun t ht => ⟨ht.sound, fun q pre strict => ?_⟩) ?_
  · rcases List.prefix_concat_iff.mp pre with rfl | inner
    · exact absurd rfl strict
    · rcases List.prefix_concat_iff.mp inner with rfl | above
      · exact ht.calm.place
      · exact ht.sound.base.unlinked q above
  · intro t q ht pre ne absent
    rcases List.prefix_concat_iff.mp pre with rfl | inner
    · exact ht.of_inside (inside_put_entry hn bare_empty)
    · exact ht.put_above inner absent

theorem path_ne_empty : s.path.text ≠ "" := Path.child_ne_empty s.name_ordinary

/-- Once the directory has been made it is there. -/
theorem makeDirs_place {h : Host} (start : s.Underway own kept before h.files)
    (fair : s.Fair own _ h (.makeDirs s.path)) (made : (h.answer (.makeDirs s.path)).1 = .ok ()) :
    ∃ es, (h.answer (.makeDirs s.path)).2.files.get? s.place = some (.dir es) := by
  rcases h.change_cases fun t => if s.path.text = "" then .ok t else t.makeDirs (h.absolute s.path)
    with ⟨e, refused, _⟩ | ⟨t, there, _, files⟩
  · cases refused.symm.trans made
  · change ∃ es, (h.change _).2.files.get? s.place = _
    rw [files]
    rw [if_neg path_ne_empty, Host.absolute, if_neg path_ne_empty, fair.cwd] at there
    refine place_slot.makeDirs_dir (s.Underway own kept before) (Path.isAbsolute_from s.absolute s.path) ?_ ?_ start
      there
    · exact fun t ht => ⟨ht.sound.extends_ground, ht.sound.base, ht.calm.place⟩
    · exact fun t q ht pre absent => ht.put_above pre absent

theorem keeps_run (c : Command) (mode : RunMode) :
    (Call.run c mode).Keeps (s.Fair own) (s.Underway own kept before) :=
  fun _ start fair => start.of_inside (fair.tools trivial)

theorem keeps_command (c : Command) :
    Installing.Keeps (s.Fair own) (s.Underway own kept before) (Installing.command c) :=
  .command (keeps_run c .reported)

theorem keeps_capture (c : Command) (mode : RunMode) :
    Program.Keeps (s.Fair own) (s.Underway own kept before) (capture c mode) := by
  refine .bind (.ask (keeps_run c mode)) fun report => ?_
  cases report.outcome with
  | ok u => exact .pure _
  | error e => exact .pure _

theorem keeps_detect (tool : String) (args : List String) (version : List VersionPart) :
    Program.Keeps (s.Fair own) (s.Underway own kept before) (Backend.detect tool args version) := by
  refine .bind (.look trivial) fun file => ?_
  cases file with
  | none => exact .pure _
  | some file =>
      refine .bind (keeps_capture _ _) fun r => ?_
      cases r with
      | ok output => exact .pure _
      | error e => exact .pure _

theorem keeps_requireTool (tool : String) (args : List String) (version : List VersionPart) :
    Installing.Keeps (s.Fair own) (s.Underway own kept before)
      (Backend.requireTool tool (Backend.detect tool args version)) := by
  refine .bind (.lift (keeps_detect tool args version)) fun there => ?_
  cases there with
  | true => exact .pure _
  | false => exact .fail _

end calls

end Site

end LanguageHost.Install
