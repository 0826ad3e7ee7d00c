import Mathlib
import LanguageHost.Proofs.Registry.Stored

/-! The manifest in memory and the one in the file, over everything that is done with one instance. A
change is saved as a whole before memory follows, so that no failure tells the two apart. -/
namespace LanguageHost

/-- A call that changes what is configured. -/
inductive Change where
  | register (language : String) (server : InstalledServer)
  | registerAll (entries : List (String × InstalledServer))
  | setEnabled (language : String) (enabled : Bool)

namespace Change

/-- The call on an instance. One that has nothing to change leaves the instance. -/
def perform (c : ServerConfigs) : Change → Program.Fallible ServerConfigs
  | .register language server => c.register language server
  | .registerAll entries => c.registerAll entries
  | .setEnabled language enabled => (·.getD c) <$> c.setEnabled language enabled

/-- The languages that a call names. -/
def languages : Change → List String
  | .register language _ | .setEnabled language _ => [language]
  | .registerAll entries => entries.map Prod.fst

/-- The servers that a call brings, their variables in order. -/
def Ordered : Change → Prop
  | .register _ server => Table.Sorted server.binary.env
  | .registerAll entries => ∀ e ∈ entries, Table.Sorted e.2.binary.env
  | .setEnabled _ _ => True

/-- What a call makes of a manifest, if it changes it at all. -/
def applied? (m : Manifest) : Change → Option Manifest
  | .register language server => some (Table.insertAll m [(language, server)])
  | .registerAll entries => some (Table.insertAll m entries)
  | .setEnabled language enabled => (Table.get? language m).map fun server =>
      Table.insert language { server with enabled := enabled } m

variable {m m' : Manifest} {change : Change}

theorem perform_eq (c : ServerConfigs) (change : Change) :
    change.perform c = match change.applied? c.installed with
      | some m => c.adopt m
      | none => pure c := by
  cases change with
  | register language server => rfl
  | registerAll entries => rfl
  | setEnabled language enabled =>
      cases found : Table.get? language c.installed with
      | none => simp only [perform, ServerConfigs.setEnabled, applied?, found, map_pure, Option.getD_none,
          Option.map_none]
      | some server =>
          simp only [perform, ServerConfigs.setEnabled, applied?, found, Functor.map_map, Option.getD_some,
            Option.map_some, id_map']

/-- Only the entries of the languages that a call names change. -/
theorem applied?_other (applied : change.applied? m = some m') {language : String}
    (other : language ∉ change.languages) : Table.get? language m' = Table.get? language m := by
  cases change with
  | register named server =>
      cases applied
      exact Table.get?_insertAll_of_notMem other m
  | registerAll entries =>
      cases applied
      exact Table.get?_insertAll_of_notMem other m
  | setEnabled named enabled =>
      obtain ⟨server, _, rfl⟩ := Option.map_eq_some_iff.mp applied
      exact Table.get?_insert_of_ne (by simpa [languages] using other) _ m

theorem applied?_ordered (ordered : m.Ordered) (servers : change.Ordered)
    (applied : change.applied? m = some m') : m'.Ordered := by
  cases change with
  | register language server =>
      cases applied
      exact ordered.insert language servers
  | registerAll entries =>
      cases applied
      exact ordered.insertAll servers
  | setEnabled language enabled =>
      obtain ⟨server, found, rfl⟩ := Option.map_eq_some_iff.mp applied
      refine ordered.insert language ?_
      exact ordered.2 (language, server) (ordered.1.mem_iff_get?.mpr found)

end Change

namespace Install.Spot
open Program (Runs Fallible Either)
variable {manifest : Path} {s : Spot manifest} {format : Manifest.Format} {c c' : ServerConfigs}
  {t t' : Files}

/-- The instance is for the manifest, and in memory is what the manifest's place stands for. -/
structure Agrees (s : Spot manifest) (format : Manifest.Format) (c : ServerConfigs) (t : Files) :
    Prop where
  writes : c.format = format
  place : c.path = manifest
  sound : s.Sound t
  plain : s.Plain t
  stands : Stands format (t.get? s.place) c.installed

theorem Has.plain_file {content : Octets} {executable : Bool}
    (has : s.Has (some (.file content executable)) t) : s.Plain t := by
  intro target link
  cases has.entry.symm.trans link

theorem Agrees.of_has (agrees : s.Agrees format c t) (has : s.Has (t.get? s.place) t') :
    s.Agrees format c t' where
  writes := agrees.writes
  place := agrees.place
  sound := has.sound
  plain target link := agrees.plain target (has.entry ▸ link)
  stands := has.entry ▸ agrees.stands

/-- A call on an instance keeps memory and file together. One that fails leaves what stands in the
manifest's place. -/
theorem holds_perform (lawful : format.Lawful) {entry : Option Files} (agrees : s.Agrees format c t)
    (there : t.get? s.place = entry) {change : Change} (servers : change.Ordered) :
    Fallible.Holds s.Here (s.Has entry) (change.perform c)
      (fun c' t' => s.Agrees format c' t' ∧
        c'.installed = (change.applied? c.installed).getD c.installed)
      (s.Has entry) fun _ => True := by
  have same : ∀ t', s.Has entry t' → s.Agrees format c t' := fun t' has =>
    agrees.of_has (there ▸ has)
  rw [Change.perform_eq]
  cases applied : change.applied? c.installed with
  | none => exact .pure (fun t' has => ⟨same t' has, rfl⟩) fun _ _ => trivial
  | some m =>
      have ordered := Change.applied?_ordered (agrees.stands.ordered lawful) servers applied
      change Fallible.Holds s.Here (s.Has entry) (c.adopt m) _ _ _
      unfold ServerConfigs.adopt
      rw [agrees.writes, agrees.place]
      cases written : format.write m with
      | error e =>
          refine Fallible.Holds.bind (R := fun _ _ => False) ?_ (fun _ => ?_) fun _ _ => trivial
          · unfold Manifest.save
            rw [written]
            exact Program.Holds.pure (fun _ has => has) fun _ _ => trivial
          · exact .pure (fun _ never => never.elim) fun _ _ => trivial
      | ok text =>
          refine (holds_save written).bind (fun _ => ?_) fun _ _ => trivial
          refine .pure (fun t' saved => ?_) fun _ _ => trivial
          obtain ⟨executable, has⟩ := saved
          refine ⟨⟨rfl, rfl, has.sound, has.plain_file, ?_⟩, rfl⟩
          rw [has.entry]
          exact stands_written lawful ordered written executable

/-- A call on an instance, on machines that may let any of its file operations fail. A call that fails
leaves the instance as it was. -/
inductive Step (s : Spot manifest) : ServerConfigs × Files → ServerConfigs × Files → Prop
  | done {c c' : ServerConfigs} {t t' : Files} {change : Change} : change.Ordered →
      Runs s.Here t (change.perform c).run (some (.ok c')) t' → Step s (c, t) (c', t')
  | failed {c : ServerConfigs} {t t' : Files} {change : Change} {e : Error} : change.Ordered →
      Runs s.Here t (change.perform c).run (some (.error e)) t' → Step s (c, t) (c, t')
  /-- a write that failed has left a part of its text in the draft -/
  | torn {c : ServerConfigs} {t : Files} {content : Octets} {executable : Bool} : s.Drafted t →
      Step s (c, t) (c, t.put (some (.file content executable)) s.draft)

/-- What a call that ends has done. -/
theorem Agrees.performed (lawful : format.Lawful) (agrees : s.Agrees format c t) {change : Change}
    (servers : change.Ordered) {r : Except Error ServerConfigs}
    (run : Runs s.Here t (change.perform c).run (some r) t') :
    match r with
    | .ok c' => s.Agrees format c' t' ∧ c'.installed = (change.applied? c.installed).getD c.installed
    | .error _ => s.Agrees format c t' ∧ t'.get? s.place = t.get? s.place := by
  have ended := (holds_perform lawful agrees rfl servers).ends ⟨agrees.sound, rfl⟩ run
  cases r with
  | ok c' => exact ended
  | error e =>
      have has : s.Has (t.get? s.place) t' := ended
      exact ⟨agrees.of_has has, has.entry⟩

theorem Agrees.step (lawful : format.Lawful) (agrees : s.Agrees format c t)
    (step : s.Step (c, t) (c', t')) : s.Agrees format c' t' := by
  cases step with
  | done servers run => exact (agrees.performed lawful servers run).1
  | failed servers run => exact (agrees.performed lawful servers run).1
  | torn drafted =>
      have has : s.Has (t.get? s.place) t := ⟨agrees.sound, rfl⟩
      exact agrees.of_has (has.put_draft drafted (atMostFile_file _ _))

theorem Agrees.steps (lawful : format.Lawful) (agrees : s.Agrees format c t)
    (steps : Relation.ReflTransGen s.Step (c, t) (c', t')) : s.Agrees format c' t' := by
  generalize last : (c', t') = state at steps
  induction steps generalizing c' t' with
  | refl =>
      cases last
      exact agrees
  | @tail mid _ _ step ih =>
      subst last
      have before : s.Agrees format mid.1 mid.2 := ih rfl
      exact before.step lawful step

/-- Wherever the files are loaded from and no file operation fails, the servers are the ones in memory. -/
def Loads (s : Spot manifest) (c : ServerConfigs) (t : Files) : Prop :=
  ∀ (h : Host) (user : UserConfig), h.files = t → h.cwd = s.cwd → (∀ n, h.faults n = none) →
    ((ServerConfigs.loadAs c.format manifest user).run.run h).1.map ServerConfigs.installed =
      .ok c.installed

theorem Agrees.loads (agrees : s.Agrees format c t) : s.Loads c t := by
  rintro h user rfl here quiet
  rw [agrees.writes, load_of_stands here agrees.sound agrees.plain quiet agrees.stands]
  rfl

theorem agrees_of_load {h : Host} {user : UserConfig} (here : h.cwd = s.cwd)
    (sound : s.Sound h.files) (plain : s.Plain h.files)
    (loaded : ((ServerConfigs.loadAs format manifest user).run.run h).1 = .ok c) :
    s.Agrees format c h.files := by
  have run := Program.runs_there (ServerConfigs.loadAs format manifest user).run here
  rw [loaded] at run
  obtain ⟨-, writes, place, stands⟩ := stands_of_load sound plain run
  exact ⟨writes, place, sound, plain, stands⟩

/-! Where nothing is refused. -/

/-- A call that changes files by a path is carried out. -/
def Granted (h : Host) : Call β → Prop
  | .makeDirs p => (h.answer (.makeDirs p)).1 = .ok ()
  | .writeFile p content => (h.answer (.writeFile p content)).1 = .ok ()
  | .rename p q => (h.answer (.rename p q)).1 = .ok ()
  | _ => True

/-- The machines that refuse no change of files. -/
def Willing (s : Spot manifest) : Fairness := fun _ h c => h.cwd = s.cwd ∧ Granted h c

theorem holds_granted {fair : Fairness} {c : Call (Except IoError Unit)}
    (carried : ∀ h, fair _ h c → (h.answer c).1 = .ok ()) :
    Fallible.Holds fair (fun _ => True) (Program.io c) (fun _ _ => True) (fun _ => False)
      fun _ => True := by
  refine .io (fun h _ allowed => ⟨fun _ _ => trivial, fun e refused => ?_⟩) (fun _ _ => trivial)
    (fun _ _ _ => trivial) fun _ never => never.elim
  cases (carried h allowed).symm.trans refused

theorem holds_willing (path : Path) (text : String) :
    Fallible.Holds s.Willing (fun _ => True) (Manifest.publish path text) (fun _ _ => True)
      (fun _ => False) fun _ => True := by
  have draft : Fallible.Holds s.Willing (fun _ => True)
      (Program.io (Program.writeText (Manifest.draftPath path) text)) (fun _ _ => True)
      (fun _ => False) fun _ => True := holds_granted fun _ allowed => allowed.2
  have place : Fallible.Holds s.Willing (fun _ => True)
      (Program.io (.rename (Manifest.draftPath path) path)) (fun _ _ => True) (fun _ => False)
      fun _ => True := holds_granted fun _ allowed => allowed.2
  have rest := draft.bind (fun _ => place) fun _ never => never.elim
  unfold Manifest.publish
  cases path.parent? with
  | none => exact rest
  | some dir =>
      exact (holds_granted fun _ allowed => allowed.2).bind (fun _ => rest) fun _ never => never.elim

theorem runs_here {p : Program α} {r : Option α} (run : Runs s.Willing t p r t') :
    Runs s.Here t p r t' := by
  induction run with
  | done => exact .done
  | abandoned => exact .abandoned
  | call files allowed _ ih => exact .call files allowed.1 ih

/-- What is taken over where nothing is refused: the manifest's place holds its text. -/
theorem adopted {m : Manifest} {text : String} (writes : c.format = format) (place : c.path = manifest)
    (sound : s.Sound t) (written : format.write m = .ok text) {r : Except Error ServerConfigs}
    (run : Runs s.Willing t (c.adopt m).run (some r) t') :
    r = .ok { c with installed := m } ∧
      ∃ executable, s.Has (some (.file (Utf8.ofString text) executable)) t' := by
  subst writes place
  unfold ServerConfigs.adopt at run
  rcases Program.runs_bind run with ⟨none, _⟩ | ⟨saved, t₁, saving, rest⟩
  · cases none
  · have ends := (holds_save written).ends ⟨sound, rfl⟩ (runs_here saving)
    cases saved with
    | ok u =>
        cases rest with
        | done => exact ⟨rfl, ends⟩
    | error e =>
        unfold Manifest.save at saving
        rw [written] at saving
        exact ((holds_willing c.path text).ends trivial saving).elim

theorem not_adopted {m : Manifest} {e : Error} (unwritten : c.format.write m = .error e)
    {r : Except Error ServerConfigs} (run : Runs s.Willing t (c.adopt m).run (some r) t') :
    r = .error e ∧ t' = t := by
  unfold ServerConfigs.adopt Manifest.save at run
  rw [unwritten] at run
  cases run with
  | done => exact ⟨rfl, rfl⟩

/-- A file that can be read is found. -/
theorem found_of_read {h : Host} {p : Path} {content : Octets}
    (readable : (h.answer (.readFile p)).1 = .ok content) : (h.answer (.kind p true)).1.isOk = true := by
  have read := Host.look_eq readable
  change (Host.kind h.files (h.absolute p) true).isOk = true
  unfold Files.read Files.find at read
  unfold Host.kind
  cases located : h.files.locate true (h.absolute p) with
  | error e =>
      rw [located] at read
      cases read
  | ok names =>
      rw [located] at read
      simp only [bind, Except.bind] at read ⊢
      cases there : h.files.get? names with
      | some entry => rfl
      | none =>
          rw [there] at read
          cases read

end Install.Spot

namespace Registry
open Install (Spot)
open Program (Runs)

/-- An instance that was loaded stays what its file is loaded as, through any calls and any failures of
their file operations. A call that fails leaves what is in the file and in memory; one that does not
changes the languages that it names, and no others. -/
theorem memory_is_file {manifest : Path} (s : Spot manifest) {format : Manifest.Format}
    (lawful : format.Lawful) {start : Host} {user : UserConfig} {c₀ c : ServerConfigs} {t : Files}
    (here : start.cwd = s.cwd) (sound : s.Sound start.files) (plain : s.Plain start.files)
    (loaded : ((ServerConfigs.loadAs format manifest user).run.run start).1 = .ok c₀)
    (steps : Relation.ReflTransGen s.Step (c₀, start.files) (c, t)) :
    s.Loads c t ∧ ∀ (change : Change) (r : Except Error ServerConfigs) (t' : Files), change.Ordered →
      Runs s.Here t (change.perform c).run (some r) t' →
      match r with
      | .ok c' => s.Loads c' t' ∧ ∀ language ∉ change.languages,
          c'.installed.get? language = c.installed.get? language
      | .error _ => s.Loads c t' ∧ t'.at? (s.cwd / manifest.text) = t.at? (s.cwd / manifest.text) := by
  have agrees := (Spot.agrees_of_load here sound plain loaded).steps lawful steps
  refine ⟨agrees.loads, fun change r t' servers run => ?_⟩
  have ended := agrees.performed lawful servers run
  cases r with
  | ok c' =>
      obtain ⟨agrees', installed⟩ := ended
      refine ⟨agrees'.loads, fun language other => ?_⟩
      rw [installed]
      cases applied : change.applied? c.installed with
      | none => rfl
      | some m => exact Change.applied?_other applied other
  | error e =>
      obtain ⟨agrees', same⟩ := ended
      refine ⟨agrees'.loads, ?_⟩
      rw [s.slot.at?_eq agrees'.sound.extends_ground agrees'.sound.home,
        s.slot.at?_eq agrees.sound.extends_ground agrees.sound.home]
      exact same

/-- A manifest that can be read is loaded whenever its content is text: one that is no manifest counts
as empty. Bytes that are no text end the load. From what has been loaded a server can be registered;
where no change of files is refused its text is in the file, and it is read as the manifest with the
server. -/
theorem readable_manifest_is_loaded_if_text {manifest : Path} {format : Manifest.Format}
    (lawful : format.Lawful) {start : Host} {content : Octets} (user : UserConfig)
    (readable : (start.answer (.readFile manifest)).1 = .ok content) :
    ((ServerConfigs.loadAs format manifest user).run.run start).1 =
      (match Utf8.toString? content with
      | none => .error (.io .notUtf8)
      | some text => .ok ⟨format, manifest, (format.read? text).getD [], user.servers⟩) ∧
    ∀ (s : Spot manifest) (c : ServerConfigs), s.Sound start.files →
      ((ServerConfigs.loadAs format manifest user).run.run start).1 = .ok c →
      ∀ (language : String) (server : InstalledServer), Table.Sorted server.binary.env →
      ∀ (r : Except Error ServerConfigs) (t : Files),
        Runs s.Willing start.files (c.register language server).run (some r) t →
        match format.write (c.installed.insert language server) with
        | .error e => r = .error e ∧ t = start.files
        | .ok text => r = .ok { c with installed := c.installed.insert language server } ∧
            t.read (s.cwd / manifest.text) = .ok (Utf8.ofString text) ∧
            format.read? text = some (c.installed.insert language server) := by
  have load : ((ServerConfigs.loadAs format manifest user).run.run start).1 =
      Spot.received format manifest user (.ok content) := by
    rw [Spot.run_loadAs, Spot.found_of_read readable, readable, if_pos rfl]
  refine ⟨load, fun s c sound loaded language server env r t run => ?_⟩
  rw [load] at loaded
  unfold Spot.received at loaded
  cases decoded : Utf8.toString? content with
  | none => simp [decoded] at loaded
  | some text =>
      simp only [decoded] at loaded
      cases loaded
      have ordered : Manifest.Ordered ((format.read? text).getD []) := by
        cases read : format.read? text with
        | none => exact Manifest.ordered_nil
        | some m => exact lawful.ordered text m read
      have entered := ordered.insert language env
      -- one server is entered as a list of one
      change Runs s.Willing start.files (ServerConfigs.adopt
        (ServerConfigs.mk format manifest ((format.read? text).getD []) user.servers)
        (Table.insert language server ((format.read? text).getD []))).run (some r) t at run
      dsimp only [Spot.missing]
      cases written : format.write (Table.insert language server ((format.read? text).getD [])) with
      | error e => exact Spot.not_adopted written run
      | ok text' =>
          obtain ⟨done, executable, has⟩ := Spot.adopted (s := s) rfl rfl sound written run
          refine ⟨done, ?_, lawful.reads _ _ entered written⟩
          rw [s.slot.read_eq has.sound.extends_ground has.sound.home has.plain_file]
          have entry := has.entry
          rw [Spot.place] at entry
          rw [entry]

/-! One instance on a machine where nothing happens by itself. -/

namespace Sample

def manifest : Path := ⟨"/m/i.json"⟩

/-- The directory of the manifest with what is in it. -/
def files (entries : List (String × Files)) : Files := .dir [("m", .dir entries)]

/-- The manifest, if there is one. -/
def standing : Option Octets → List (String × Files)
  | none => []
  | some content => [("i.json", .file content false)]

def drafted (old : Option Octets) (content : Octets) : List (String × Files) :=
  standing old ++ [("i.json.tmp", .file content false)]

/-- A machine with these files that has made some file operations, and refuses some. -/
def host (t : Files) (faults : Nat → Option IoError) (operations : Nat) : Host where
  files := t
  cwd := ⟨"/"⟩
  env := []
  accountHome := none
  programs _ _ := ⟨[], .exit 0⟩
  network _ _ := none
  clock := ""
  trigger := .never
  isCancelled := false
  faults := faults
  operations := operations
  started := []
  told := []

def spot : Spot manifest where
  cwd := ⟨"/"⟩
  ground := Files.empty
  home := ["m"]
  file := "i.json"
  absolute := by decide
  slot := ⟨by decide, by decide, [.root, .name "m"], by cbv, Files.way_child "m" (by decide)⟩
  named := by decide
  loose := by rintro x ⟨⟩

theorem sound (old : Option Octets) : spot.Sound (files (standing old)) where
  extends_ground := Files.extends_empty _
  home := Files.clear_child (by rintro x ⟨⟩; rfl)
  draft target there := by cases old <;> cases there

theorem plain (old : Option Octets) : spot.Plain (files (standing old)) := by
  cases old <;> rintro target ⟨⟩

theorem components_draft :
    Path.components ⟨"/m/i.json.tmp"⟩ = [.root, .name "m", .name "i.json.tmp"] := by cbv

theorem components_manifest : manifest.components = [.root, .name "m", .name "i.json"] := by cbv

section machine
variable {faults : Nat → Option IoError} {n : Nat} (quiet : faults n = none)
include quiet

theorem answer_home (old : Option Octets) :
    (host (files (standing old)) faults n).answer (.makeDirs ⟨"/m"⟩) =
      (.ok (), host (files (standing old)) faults (n + 1)) := by
  cases old with
  | none => exact Host.makeDirs_made (h := host (files []) faults n) quiet (by cbv)
  | some c => exact Host.makeDirs_made (h := host (files (standing (some c))) faults n) quiet (by cbv)

theorem answer_draft (old : Option Octets) (content : Octets) :
    (host (files (standing old)) faults n).answer (.writeFile ⟨"/m/i.json.tmp"⟩ content) =
      (.ok (), host (files (drafted old content)) faults (n + 1)) := by
  refine Host.write_made (h := host (files (standing old)) faults n) quiet ?_
  change (files (standing old)).write ⟨"/m/i.json.tmp"⟩ content = _
  unfold Files.write
  rw [Files.locate_eq (by decide), components_draft]
  cases old <;> cbv

theorem answer_replace (old : Option Octets) (content : Octets) :
    (host (files (drafted old content)) faults n).answer (.rename ⟨"/m/i.json.tmp"⟩ manifest) =
      (.ok (), host (files (standing (some content))) faults (n + 1)) := by
  refine Host.rename_made (h := host (files (drafted old content)) faults n) quiet ?_
  change (files _).rename ⟨"/m/i.json.tmp"⟩ manifest = _
  unfold Files.rename
  rw [Files.locate_eq (by decide), Files.locate_eq (by decide), components_draft, components_manifest]
  cases old <;> cbv

end machine

def server (path : String) : InstalledServer :=
  ⟨"pkg:npm/p@1", "1", "", ⟨⟨path⟩, [], []⟩, "npm", true⟩

def opened : ServerConfigs := ⟨Manifest.json, manifest, [], []⟩

def change : Change := .register "a" (server "/a")

def changed : ServerConfigs := { opened with installed := [("a", server "/a")] }

def text : String := (Manifest.toJson changed.installed).pretty 0

/-- The call on a machine that refuses some file operations. -/
def outcome (faults : Nat → Option IoError) : Except Error ServerConfigs × Host :=
  (change.perform opened).run.run (host (files []) faults 0)

/-- A machine that refuses the renaming, the third operation of a save. -/
def refusing (n : Nat) : Option IoError := if n = 2 then some .permission else none

theorem outcome_eq {faults : Nat → Option IoError} (first : faults 0 = none) (second : faults 1 = none) :
    outcome faults = (do
      Program.io (.rename ⟨"/m/i.json.tmp"⟩ manifest)
      pure changed : Program.Fallible ServerConfigs).run.run
        (host (files (drafted none (Utf8.ofString text))) faults 2) := by
  have parent : manifest.parent? = some ⟨"/m"⟩ := rfl
  have draft : Manifest.draftPath manifest = ⟨"/m/i.json.tmp"⟩ := rfl
  unfold outcome
  rw [Change.perform_eq]
  change (do Manifest.publish manifest text; pure changed : Program.Fallible ServerConfigs).run.run _ = _
  unfold Manifest.publish
  rw [parent, draft]
  simp only [bind_assoc]
  exact (Program.run_io_ok (answer_home first none) _).trans
    (Program.run_io_ok (answer_draft second none _) _)

theorem outcome_done : (outcome fun _ => none).1 = .ok changed := by
  rw [outcome_eq rfl rfl, Program.run_io_ok (answer_replace rfl none _)]
  rfl

theorem outcome_refused : (outcome refusing).1 = .error (.io .permission) := by
  rw [outcome_eq rfl rfl]
  rfl

theorem runs (faults : Nat → Option IoError) :
    Runs spot.Here (files []) (change.perform opened).run (some (outcome faults).1)
      (outcome faults).2.files :=
  Program.runs_there (h := host (files []) faults 0) _ rfl

theorem ordered : change.Ordered := List.Pairwise.nil

theorem loaded : ((ServerConfigs.loadAs Manifest.json manifest .empty).run.run
    (host (files []) (fun _ => none) 0)).1 = .ok opened :=
  Spot.load_of_stands (s := spot) (h := host _ _ 0) rfl (sound none) (plain none) (fun _ => rfl) .missing

theorem readable (content : Octets) :
    ((host (files (standing (some content))) (fun _ => none) 0).answer (.readFile manifest)).1 =
      .ok content := by
  have entry : (files (standing (some content))).get? spot.place = some (.file content false) := rfl
  exact Spot.answer_read (s := spot) rfl (sound _) (plain _) (fun _ => rfl) entry

theorem runs_io {faults : Nat → Option IoError} {n : Nat} {t t' t'' : Files}
    {c : Call (Except IoError Unit)} {f : Unit → Program.Fallible α} {r : Option (Except Error α)}
    (answer : (host t faults n).answer c = (.ok (), host t' faults (n + 1)))
    (granted : Spot.Granted (host t faults n) c) (rest : Runs spot.Willing t' (f ()).run r t'') :
    Runs spot.Willing t (Program.io c >>= f).run r t'' := by
  refine .call (h := host t faults n) rfl ⟨rfl, granted⟩ ?_
  rw [answer]
  exact rest

theorem registers (old : Option Octets) :
    Runs spot.Willing (files (standing old)) (opened.register "a" (server "/a")).run
      (some (.ok changed)) (files (standing (some (Utf8.ofString text)))) := by
  have home := @answer_home (fun _ => none) 0 rfl old
  have draft := @answer_draft (fun _ => none) 1 rfl old (Utf8.ofString text)
  have place := @answer_replace (fun _ => none) 2 rfl old (Utf8.ofString text)
  have parent : manifest.parent? = some ⟨"/m"⟩ := rfl
  have beside : Manifest.draftPath manifest = ⟨"/m/i.json.tmp"⟩ := rfl
  change Runs spot.Willing _
    (do Manifest.publish manifest text; pure changed : Program.Fallible ServerConfigs).run _ _
  unfold Manifest.publish
  rw [parent, beside]
  simp only [bind_assoc]
  refine runs_io home (congrArg Prod.fst home) ?_
  refine runs_io draft (congrArg Prod.fst draft) ?_
  exact runs_io place (congrArg Prod.fst place) .done

end Sample

/-- A call that is refused the last of its file operations leaves memory and file as they were; the same
call changes both where nothing is refused. -/
theorem refused_call_keeps_memory :
    (Sample.outcome Sample.refusing).1 = .error (.io .permission) ∧
      Sample.spot.Loads Sample.opened (Sample.outcome Sample.refusing).2.files ∧
      (Sample.outcome fun _ => none).1 = .ok Sample.changed ∧
      Sample.spot.Loads Sample.changed (Sample.outcome fun _ => none).2.files := by
  have refused := Sample.runs Sample.refusing
  have done := Sample.runs fun _ => none
  rw [Sample.outcome_refused] at refused
  rw [Sample.outcome_done] at done
  have before := memory_is_file Sample.spot Manifest.lawful_json rfl (Sample.sound none)
    (Sample.plain none) Sample.loaded .refl
  have after := memory_is_file Sample.spot Manifest.lawful_json rfl (Sample.sound none)
    (Sample.plain none) Sample.loaded (.single (.done Sample.ordered done))
  exact ⟨Sample.outcome_refused, (before.2 _ _ _ Sample.ordered refused).1, Sample.outcome_done, after.1⟩

/-- An octet that is no text ends a load. A bracket alone is loaded as no servers, and the server that is
registered then is in the file. -/
theorem broken_manifest_is_replaced_by_register :
    ((ServerConfigs.load Sample.manifest .empty).run.run
        (Sample.host (Sample.files (Sample.standing (some [255]))) (fun _ => none) 0)).1 =
      .error (.io .notUtf8) ∧
    ((ServerConfigs.load Sample.manifest .empty).run.run (Sample.host
        (Sample.files (Sample.standing (some (Utf8.ofString "[")))) (fun _ => none) 0)).1 =
      .ok Sample.opened ∧
    ∃ t, Runs Sample.spot.Willing (Sample.files (Sample.standing (some (Utf8.ofString "["))))
        (Sample.opened.register "a" (Sample.server "/a")).run (some (.ok Sample.changed)) t ∧
      t.read (Sample.spot.cwd / Sample.manifest.text) = .ok (Utf8.ofString Sample.text) ∧
      Manifest.json.read? Sample.text = some Sample.changed.installed := by
  have octet := (readable_manifest_is_loaded_if_text Manifest.lawful_json .empty
    (Sample.readable [255])).1
  have bytes : Utf8.toString? [255] = none := by cbv
  rw [bytes] at octet
  obtain ⟨bracket, register⟩ := readable_manifest_is_loaded_if_text Manifest.lawful_json .empty
    (Sample.readable (Utf8.ofString "["))
  have nothing : Manifest.json.read? "[" = none := by
    change Manifest.ofText? "[" = none
    cbv
  rw [Utf8.toString?_ofString] at bracket
  simp only [nothing] at bracket
  have registers := Sample.registers (some (Utf8.ofString "["))
  have ends := register Sample.spot Sample.opened (Sample.sound _) bracket "a" (Sample.server "/a")
    List.Pairwise.nil _ _ registers
  have entered : Sample.opened.installed.insert "a" (Sample.server "/a") =
    Sample.changed.installed := rfl
  have written : Manifest.json.write Sample.changed.installed = .ok Sample.text := rfl
  rw [entered, written] at ends
  obtain ⟨-, file, read⟩ := ends
  exact ⟨octet, bracket, _, registers, file, read⟩

end Registry

end LanguageHost
