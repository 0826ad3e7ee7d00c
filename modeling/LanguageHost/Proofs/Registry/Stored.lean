import LanguageHost.Proofs.Install.Spot
import LanguageHost.Proofs.Registry.Format
import LanguageHost.Proofs.Text.Utf8

/-! What a manifest's place stands for, and what a load makes of it. -/
namespace LanguageHost.Install
open Files

namespace Spot
variable {manifest : Path} (s : Spot manifest)

/-- The machines whose working directory is the one that the paths are seen from. -/
def Here : Fairness := fun _ h _ => h.cwd = s.cwd

/-- The manifest is no link. -/
def Plain (t : Files) : Prop := ∀ target, t.get? s.place ≠ some (.link target)

/-- What is found at the manifest's place stands for a manifest: nothing and what cannot be read as one
stand for the empty one. -/
inductive Stands (format : Manifest.Format) : Option Files → Manifest → Prop
  | missing : Stands format none []
  | file {content executable text} : Utf8.toString? content = some text →
      Stands format (some (.file content executable)) ((format.read? text).getD [])

variable {s} {format : Manifest.Format} {h : Host} {t : Files}

theorem Stands.unique {entry : Option Files} {m m' : Manifest} (one : Stands format entry m)
    (other : Stands format entry m') : m = m' := by
  cases one with
  | missing => cases other; rfl
  | file read =>
      cases other with
      | file read' =>
          cases read.symm.trans read'
          rfl

theorem stands_written {m : Manifest} {text : String} (lawful : format.Lawful)
    (ordered : m.Ordered) (written : format.write m = .ok text) (executable : Bool) :
    Stands format (some (.file (Utf8.ofString text) executable)) m := by
  have whole : Stands format (some (.file (Utf8.ofString text) executable)) _ :=
    .file (Utf8.toString?_ofString text)
  rwa [lawful.reads m text ordered written] at whole

theorem Stands.ordered {entry : Option Files} {m : Manifest} (lawful : format.Lawful)
    (stands : Stands format entry m) : m.Ordered := by
  cases stands with
  | missing => exact Manifest.ordered_nil
  | @file content executable text read =>
      cases made : format.read? text with
      | none => exact Manifest.ordered_nil
      | some m => exact lawful.ordered text m made

/-! Loading. -/

/-- What is loaded when nothing is there. -/
def missing (format : Manifest.Format) (path : Path) (user : UserConfig) : ServerConfigs :=
  ⟨format, path, [], user.servers⟩

/-- What a load makes of what it reads. -/
def received (format : Manifest.Format) (path : Path) (user : UserConfig) :
    Except IoError Octets → Except Error ServerConfigs
  | .error e => .error (.io e)
  | .ok content =>
    match Utf8.toString? content with
    | none => .error (.io .notUtf8)
    | some text => .ok { missing format path user with installed := (format.read? text).getD [] }

/-- The calls of a load. -/
theorem loadAs_eq (path : Path) (user : UserConfig) :
    (ServerConfigs.loadAs format path user).run = .call (.kind path true) fun found =>
      if found.isOk then .call (.readFile path) fun r => .done (received format path user r)
      else .done (.ok (missing format path user)) := by
  change Program.call _ _ = Program.call _ _
  congr 1
  funext found
  cases found with
  | error e => rfl
  | ok kind =>
      change Program.call _ _ = Program.call _ _
      congr 1
      funext r
      cases r with
      | error e => rfl
      | ok content =>
          unfold received
          cases read : Utf8.toString? content with
          | none =>
              simp only [Program.bind, read]
              rfl
          | some text =>
              simp only [Program.bind, read]
              rfl

theorem run_loadAs (h : Host) (path : Path) (user : UserConfig) :
    ((ServerConfigs.loadAs format path user).run.run h).1 =
      if (h.answer (.kind path true)).1.isOk then
        received format path user (h.answer (.readFile path)).1
      else .ok (missing format path user) := by
  rw [loadAs_eq]
  change (Program.run h (if (h.answer (.kind path true)).1.isOk then _ else _)).1 = _
  split <;> rfl

theorem absolute_manifest (here : h.cwd = s.cwd) : h.absolute manifest = s.cwd / manifest.text := by
  rw [absolute_of_ne, here]
  intro empty
  obtain ⟨init, parts⟩ := Path.exists_parts_of_fileName? s.named
  rw [empty, Path.parts_empty] at parts
  simp at parts

section calls
variable {user : UserConfig} {m : Manifest} (here : h.cwd = s.cwd) (sound : s.Sound h.files)
  (plain : s.Plain h.files)
include here sound plain

theorem kind_manifest :
    (h.answer (.kind manifest true)).1.isOk = (h.files.get? s.place).isSome := by
  change (Host.kind h.files (h.absolute manifest) true).isOk = _
  rw [absolute_manifest here, s.slot.kind_eq sound.extends_ground sound.home plain, place]
  cases h.files.get? (s.home ++ [s.file]) <;> rfl

theorem read_manifest {content : Octets} (read : (h.answer (.readFile manifest)).1 = .ok content) :
    ∃ executable, h.files.get? s.place = some (.file content executable) := by
  have found := Host.look_eq read
  rw [absolute_manifest here, s.slot.read_eq sound.extends_ground sound.home plain] at found
  rw [place]
  cases there : h.files.get? (s.home ++ [s.file]) with
  | none => rw [there] at found; cases found
  | some x =>
      rw [there] at found
      cases x with
      | file content' executable =>
          cases found
          exact ⟨executable, rfl⟩
      | dir es => cases found
      | link target => cases found

/-- What is read is what stands in the manifest's place. -/
theorem stands_of_received {c : ServerConfigs}
    (loaded : received format manifest user (h.answer (.readFile manifest)).1 = .ok c) :
    c.format = format ∧ c.path = manifest ∧ Stands format (h.files.get? s.place) c.installed := by
  cases read : (h.answer (.readFile manifest)).1 with
  | error e =>
      rw [read] at loaded
      cases loaded
  | ok content =>
      obtain ⟨executable, entry⟩ := read_manifest here sound plain read
      rw [read] at loaded
      unfold received at loaded
      cases text : Utf8.toString? content with
      | none => simp [text] at loaded
      | some text =>
          simp only [text] at loaded
          cases loaded
          exact ⟨rfl, rfl, entry ▸ .file text⟩

theorem answer_read (quiet : ∀ n, h.faults n = none) {content : Octets} {executable : Bool}
    (entry : h.files.get? s.place = some (.file content executable)) :
    (h.answer (.readFile manifest)).1 = .ok content := by
  change (h.look _).1 = _
  unfold Host.look
  rw [quiet]
  change h.files.read (h.absolute manifest) = _
  rw [absolute_manifest here, s.slot.read_eq sound.extends_ground sound.home plain]
  rw [place] at entry
  rw [entry]

/-- Where no file operation fails, what stands in the manifest's place is loaded. -/
theorem load_of_stands (quiet : ∀ n, h.faults n = none)
    (stands : Stands format (h.files.get? s.place) m) :
    ((ServerConfigs.loadAs format manifest user).run.run h).1 =
      .ok { missing format manifest user with installed := m } := by
  rw [run_loadAs, kind_manifest here sound plain]
  generalize entry : h.files.get? s.place = x at stands
  cases stands with
  | missing => rfl
  | @file content executable text read =>
      rw [answer_read here sound plain quiet entry, received, read]
      rfl

end calls

/-- What has been loaded is what stood in the manifest's place, and loading changes no file. -/
theorem stands_of_load {user : UserConfig} {c : ServerConfigs} {t' : Files} (sound : s.Sound t)
    (plain : s.Plain t)
    (run : Program.Runs s.Here t (ServerConfigs.loadAs format manifest user).run (some (.ok c)) t') :
    t' = t ∧ c.format = format ∧ c.path = manifest ∧ Stands format (t.get? s.place) c.installed := by
  rw [loadAs_eq] at run
  cases run with
  | @call _ _ h _ _ _ _ files here on =>
      subst files
      have same : (h.answer (.kind manifest true)).2.files = h.files := rfl
      rw [same] at on
      beta_reduce at on
      rw [kind_manifest here sound plain] at on
      split at on
      · cases on with
        | @call _ _ h' _ _ _ _ files here on =>
            rw [← files] at sound plain ⊢
            have same' : (h'.answer (.readFile manifest)).2.files = h'.files := h'.files_look _
            rw [same'] at on
            beta_reduce at on
            generalize got : received format manifest user (h'.answer (.readFile manifest)).1 = r at on
            cases on with
            | done => exact ⟨rfl, stands_of_received here sound plain got⟩
      · next absent =>
          cases on with
          | done =>
              have nothing : h.files.get? s.place = none := by simpa using absent
              exact ⟨rfl, rfl, rfl, nothing ▸ .missing⟩

/-! Saving. -/

/-- The manifest's place holds the entry. -/
structure Has (s : Spot manifest) (entry : Option Files) (t : Files) : Prop where
  sound : s.Sound t
  entry : t.get? s.place = entry

section has
variable {entry : Option Files}

theorem Has.put_new {q : List String} (has : s.Has entry t) (pre : q <+: s.home) (ne : q ≠ [])
    (absent : t.get? q = none) : s.Has entry (t.put (some empty) q) where
  sound := has.sound.put_new ne absent
  entry := by
    have apart : ¬ s.place <+: q := fun above => not_above_home (above.trans pre)
    rw [get?_put_empty ne absent apart, has.entry]

theorem Has.put_draft (has : s.Has entry t) (before : s.Drafted t) {draft : Option Files}
    (file : AtMostFile draft) : s.Has entry (t.put draft s.draft) where
  sound := has.sound.put_draft before file
  entry := by rw [get?_put_apart draft_not_above_place place_not_above_draft, has.entry]

theorem has_replaced (sound : s.Sound t) (drafted : s.Drafted t)
    (parent : ∃ es, t.get? s.home = some (.dir es)) (x : Files) :
    s.Has (some x) ((t.put none s.draft).put (some x) s.place) where
  sound := (sound.put_draft drafted atMostFile_none).put_place _
  entry := by
    obtain ⟨es, dir⟩ := parent
    obtain ⟨es', dir'⟩ := dir_put_above dir none (draftName s.file)
    exact get?_put_some dir' x s.file

end has

/-- A save that ends well has put the text in the manifest's place; one that fails has left what stood
there. -/
theorem holds_save {m : Manifest} {text : String} {entry : Option Files}
    (written : format.write m = .ok text) :
    Program.Fallible.Holds s.Here (s.Has entry) (Manifest.save format manifest m)
      (fun _ t => ∃ executable, s.Has (some (.file (Utf8.ofString text) executable)) t)
      (s.Has entry) fun _ => True := by
  unfold Manifest.save
  rw [written]
  refine (holds_publish (R := fun t => ∃ executable,
    s.Has (some (.file (Utf8.ofString text) executable)) t) text (fun _ _ _ here => here)
    (fun _ has => has.sound) (fun _ _ has => has.put_new) ?_ ?_).mono (fun _ has => has)
    (fun _ _ has => has) fun _ _ => trivial
  · exact fun t executable has drafted => has.put_draft drafted (atMostFile_file _ _)
  · exact fun t executable has drafted parent => ⟨executable, has_replaced has.sound drafted parent _⟩

end Spot

end LanguageHost.Install
