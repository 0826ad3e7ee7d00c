import LanguageHost.Proofs.Registry.Stages

/-! Processes that load and change one manifest with nothing to keep them apart, each call of each at any
time. As long as no call fails the manifest is what one of them has in memory: the draft that a process
renames is its own, since of two that have written one at most the first finds it. -/
namespace LanguageHost.Registry
open Files Install
open Install.Spot (Stands)

/-- Processes that share their files. -/
structure Crowd (ι : Type) where
  files : Files
  programs : ι → Program (Except Error ServerConfigs)

variable {ι : Type} [DecidableEq ι]

/-- One of the processes makes its next call, on a machine that may fail it. -/
inductive Step (cwd : Path) (i : ι) : Crowd ι → Crowd ι → Prop
  | call {β : Type} {h : Host} {programs : ι → Program (Except Error ServerConfigs)} {c : Call β}
      {next : β → Program (Except Error ServerConfigs)} : h.cwd = cwd → programs i = .call c next →
      Step cwd i ⟨h.files, programs⟩
        ⟨(h.answer c).2.files, Function.update programs i (next (h.answer c).1)⟩

/-- Any number of calls by any of the processes. -/
def Run (cwd : Path) : Crowd ι → Crowd ι → Prop :=
  Relation.ReflTransGen fun x y => ∃ i, Step cwd i x y

variable {manifest : Path} {s : Spot manifest} {format : Manifest.Format} {t t' : Files}
  {σ : ι → Stage} {i : ι} {σ' : Stage}

theorem update_same : Function.update σ i σ' i = σ' := Function.update_self i σ' σ

theorem update_other {j : ι} (other : j ≠ i) : Function.update σ i σ' j = σ j :=
  Function.update_of_ne other σ' σ

/-! The files and the stages of all processes. -/

/-- What a run keeps whatever fails. -/
structure Staged (s : Spot manifest) (format : Manifest.Format) (work : ι → Session) (t : Files)
    (σ : ι → Stage) : Prop where
  sound : s.Sound t
  plain : s.Plain t
  fit : ∀ i, (σ i).Fit format manifest
  drafted : ∀ i w, σ i = .replacing w → s.Drafted t
  own : ∀ i a, σ i = .looking a ∨ σ i = .reading a → a = work i

variable {work : ι → Session}

theorem Staged.update (staged : Staged s format work t σ) (sound : s.Sound t') (plain : s.Plain t')
    (kept : s.Drafted t → s.Drafted t') (fit : σ'.Fit format manifest)
    (drafted : ∀ w, σ' = .replacing w → s.Drafted t')
    (own : ∀ a, σ' = .looking a ∨ σ' = .reading a → a = work i) :
    Staged s format work t' (Function.update σ i σ') where
  sound := sound
  plain := plain
  fit := (Function.forall_update_iff σ fun _ σ => σ.Fit format manifest).mpr
    ⟨fit, fun j _ => staged.fit j⟩
  drafted := (Function.forall_update_iff σ fun _ σ => ∀ w, σ = .replacing w → s.Drafted t').mpr
    ⟨drafted, fun j _ w there => kept (staged.drafted j w there)⟩
  own := (Function.forall_update_iff σ fun j σ => ∀ a, σ = .looking a ∨ σ = .reading a →
    a = work j).mpr ⟨own, fun j _ => staged.own j⟩

/-- Where a process gets by its calls on an instance. -/
theorem Staged.resume (staged : Staged s format work t σ) (sound : s.Sound t') (plain : s.Plain t')
    (kept : s.Drafted t → s.Drafted t') {c : ServerConfigs} {changes : List Change}
    (writes : c.format = format) (place : c.path = manifest) (held : c.installed.Ordered)
    (ordered : ∀ change ∈ changes, change.Ordered) :
    Staged s format work t' (Function.update σ i (Stage.resume c changes)) := by
  refine staged.update sound plain kept (Stage.fit_resume writes place held ordered) ?_ ?_
  · exact fun w there => absurd there (Stage.resume_ne_replacing w)
  · rintro a (there | there)
    all_goals
      have loads : ¬ (Stage.resume c changes).Loads := Stage.not_loads_resume
      rw [there] at loads
      exact absurd trivial loads

theorem Staged.step (lawful : format.Lawful) (staged : Staged s format work t σ)
    (advance : Advance s format t (σ i) t' σ') :
    Staged s format work t' (Function.update σ i σ') := by
  generalize now : σ i = before at advance
  have fit := now ▸ staged.fit i
  cases advance with
  | @found a =>
      refine staged.update staged.sound staged.plain id trivial (fun _ => nofun) ?_
      rintro b (⟨⟨⟩⟩ | ⟨⟨⟩⟩)
      exact staged.own i a (.inl now)
  | @loaded _ a c begins writes place stands =>
      refine staged.resume staged.sound staged.plain id writes place (stands.ordered lawful) ?_
      exact a.ordered
  | made untouched =>
      exact staged.update untouched.has.sound (untouched.plain staged.plain) untouched.drafted fit
        (fun _ => nofun) fun _ => by rintro (⟨⟨⟩⟩ | ⟨⟨⟩⟩)
  | @wrote w executable drafted parent =>
      have has := (⟨staged.sound, rfl⟩ : s.Has (t.get? s.place) t).put_draft drafted
        (atMostFile_file (Utf8.ofString w.text) executable)
      refine staged.update has.sound (fun target there => staged.plain target (has.entry ▸ there))
        (fun _ => ?_) fit (fun _ _ => ?_) fun _ => by rintro (⟨⟨⟩⟩ | ⟨⟨⟩⟩)
      all_goals exact drafted.put (atMostFile_file _ _)
  | @replaced w x there =>
      obtain ⟨writes, place, held, -, rest⟩ := fit
      have drafted := staged.drafted i w now
      obtain ⟨content, executable, rfl⟩ := drafted x there
      have has := Spot.has_replaced staged.sound drafted (dir_of_get?_concat there)
        (.file content executable)
      refine staged.resume has.sound has.plain_file (fun drafted y there => ?_) writes place held rest
      rw [get?_put_apart Spot.place_not_above_draft Spot.draft_not_above_place] at there
      exact drafted.put atMostFile_none y there
  | failed e untouched =>
      exact staged.update untouched.has.sound (untouched.plain staged.plain) untouched.drafted trivial
        (fun _ => nofun) fun _ => by rintro (⟨⟨⟩⟩ | ⟨⟨⟩⟩)

/-! Whose draft it is. -/

/-- The run can come to no end in which no call has failed. -/
inductive Trapped (s : Spot manifest) (t : Files) (σ : ι → Stage) : Prop
  | failed {i : ι} : ¬ (σ i).Well → Trapped s t σ
  /-- a draft is to be renamed that another process has renamed already -/
  | robbed {i : ι} {w : Save} : σ i = .replacing w → t.get? s.draft = none → Trapped s t σ
  | rivals {i j : ι} {w v : Save} : i ≠ j → σ i = .replacing w → σ j = .replacing v → Trapped s t σ

theorem get?_draft_replaced {x : Files} :
    ((t.put none s.draft).put (some x) s.place).get? s.draft = none := by
  rw [get?_put_apart Spot.place_not_above_draft Spot.draft_not_above_place]
  have gone := get?_put_none (Spot.draft_ne_nil (s := s)) t []
  rwa [List.append_nil] at gone

/-- Who has failed stays where it is. -/
theorem Trapped.of_failed {j : ι} (ill : ¬ (σ j).Well) (well : (σ i).Well) :
    Trapped s t' (Function.update σ i σ') := by
  have apart : j ≠ i := by
    rintro rfl
    exact ill well
  exact .failed (i := j) (by rwa [update_other apart])

/-- A step that renames no draft frees nobody. -/
theorem Trapped.kept (trapped : Trapped s t σ) (well : (σ i).Well)
    (idle : ∀ w, σ i ≠ .replacing w) (draft : t'.get? s.draft = t.get? s.draft) :
    Trapped s t' (Function.update σ i σ') := by
  have other {j : ι} {w : Save} (there : σ j = .replacing w) : j ≠ i := by
    rintro rfl
    exact idle w there
  cases trapped with
  | failed ill => exact .of_failed ill well
  | @robbed j w there gone =>
      exact .robbed ((update_other (other there)).trans there) (draft.trans gone)
  | @rivals j k w v apart there there' =>
      exact .rivals apart ((update_other (other there)).trans there)
        ((update_other (other there')).trans there')

theorem Trapped.step (trapped : Trapped s t σ) (advance : Advance s format t (σ i) t' σ') :
    Trapped s t' (Function.update σ i σ') := by
  generalize now : σ i = before at advance
  cases advance with
  | found => exact trapped.kept (now ▸ trivial) (by simp [now]) rfl
  | loaded begins =>
      rcases begins with rfl | rfl
      all_goals exact trapped.kept (now ▸ trivial) (by simp [now]) rfl
  | made untouched => exact trapped.kept (now ▸ trivial) (by simp [now]) untouched.draft
  | wrote executable drafted parent =>
      have other {j : ι} {v : Save} (there : σ j = .replacing v) : j ≠ i := by
        rintro rfl
        cases now.symm.trans there
      cases trapped with
      | failed ill => exact .of_failed ill (now ▸ trivial)
      | robbed there _ =>
          exact .rivals (other there).symm update_same ((update_other (other there)).trans there)
      | rivals _ there _ =>
          exact .rivals (other there).symm update_same ((update_other (other there)).trans there)
  | @replaced w x there =>
      cases trapped with
      | failed ill => exact .of_failed ill (now ▸ trivial)
      | robbed _ gone => cases there.symm.trans gone
      | @rivals j k _ _ apart at_j at_k =>
          -- whichever of the two has not moved now finds no draft
          by_cases moved : j = i
          · subst moved
            exact .robbed ((update_other apart.symm).trans at_k) get?_draft_replaced
          · exact .robbed ((update_other moved).trans at_j) get?_draft_replaced
  | failed e untouched => exact .failed (i := i) (by rw [update_same]; exact id)

/-- No call has failed, and whoever is to rename the draft has written it. -/
structure Orderly (s : Spot manifest) (t : Files) (σ : ι → Stage) : Prop where
  well : ∀ i, (σ i).Well
  draft : ∀ i w, σ i = .replacing w →
    ∃ executable, t.get? s.draft = some (.file (Utf8.ofString w.text) executable)
  alone : ∀ i j w v, σ i = .replacing w → σ j = .replacing v → i = j

/-- A step after which nobody new is to rename the draft, and that leaves it if anybody is. -/
theorem Orderly.kept (orderly : Orderly s t σ) (well : σ'.Well) (idle : ∀ w, σ' ≠ .replacing w)
    (draft : (∃ j w, j ≠ i ∧ σ j = .replacing w) → t'.get? s.draft = t.get? s.draft) :
    Orderly s t' (Function.update σ i σ') := by
  have before : ∀ j w, Function.update σ i σ' j = .replacing w → j ≠ i ∧ σ j = .replacing w := by
    intro j w there
    by_cases same : j = i
    · subst same
      exact absurd (update_same.symm.trans there) (idle w)
    · exact ⟨same, (update_other same).symm.trans there⟩
  constructor
  · exact (Function.forall_update_iff σ fun _ σ => σ.Well).mpr ⟨well, fun j _ => orderly.well j⟩
  · intro j w there
    obtain ⟨apart, there⟩ := before j w there
    rw [draft ⟨j, w, apart, there⟩]
    exact orderly.draft j w there
  · intro j k w v at_j at_k
    exact orderly.alone j k w v (before j w at_j).2 (before k v at_k).2

theorem Orderly.wrote (orderly : Orderly s t σ) {w : Save} (executable : Bool)
    (parent : ∃ es, t.get? s.home = some (.dir es)) (alone : ∀ j v, σ j = .replacing v → j = i) :
    Orderly s (t.put (some (.file (Utf8.ofString w.text) executable)) s.draft)
      (Function.update σ i (.replacing w)) := by
  have only : ∀ j v, Function.update σ i (.replacing w) j = .replacing v → j = i := by
    intro j v there
    by_contra apart
    exact apart (alone j v ((update_other apart).symm.trans there))
  constructor
  · exact (Function.forall_update_iff σ fun _ σ => σ.Well).mpr ⟨trivial, fun j _ => orderly.well j⟩
  · intro j v there
    obtain rfl := only j v there
    cases update_same.symm.trans there
    obtain ⟨es, dir⟩ := parent
    exact ⟨executable, get?_put_some dir _ _⟩
  · intro j k v u at_j at_k
    rw [only j v at_j, only k u at_k]

/-- Either all is in order after a step, or the run is trapped. -/
theorem Orderly.step (orderly : Orderly s t σ) (advance : Advance s format t (σ i) t' σ') :
    Orderly s t' (Function.update σ i σ') ∨ Trapped s t' (Function.update σ i σ') := by
  generalize now : σ i = before at advance
  have resumed {c : ServerConfigs} {changes : List Change} {t' : Files}
      (draft : (∃ j w, j ≠ i ∧ σ j = .replacing w) → t'.get? s.draft = t.get? s.draft) :
      Orderly s t' (Function.update σ i (Stage.resume c changes)) ∨
        Trapped s t' (Function.update σ i (Stage.resume c changes)) := by
    by_cases well : (Stage.resume c changes).Well
    · exact .inl (orderly.kept well Stage.resume_ne_replacing draft)
    · exact .inr (.failed (i := i) (by rwa [update_same]))
  cases advance with
  | found => exact .inl (orderly.kept trivial (fun _ => nofun) fun _ => rfl)
  | loaded => exact resumed fun _ => rfl
  | made untouched => exact .inl (orderly.kept trivial (fun _ => nofun) fun _ => untouched.draft)
  | @wrote w executable drafted parent =>
      by_cases rival : ∃ j v, j ≠ i ∧ σ j = .replacing v
      · obtain ⟨j, v, apart, there⟩ := rival
        exact .inr (.rivals apart.symm update_same ((update_other apart).trans there))
      · refine .inl (orderly.wrote executable parent fun j v there => ?_)
        by_contra apart
        exact rival ⟨j, v, apart, there⟩
  | @replaced w x there =>
      refine resumed ?_
      rintro ⟨j, v, apart, other⟩
      exact absurd (orderly.alone j i v w other now) apart
  | failed e untouched => exact .inr (.failed (i := i) (by rw [update_same]; exact id))

/-! What the manifest is. -/

/-- In the manifest's place stands what one of the processes has in memory, if any process has loaded
it. -/
def Told (s : Spot manifest) (format : Manifest.Format) (t : Files) (σ : ι → Stage) : Prop :=
  (∃ i m, (σ i).memory? = some m ∧ Stands format (t.get? s.place) m) ∨ ∀ i, (σ i).memory? = none

theorem Told.kept (told : Told s format t σ) (memory : σ'.memory? = (σ i).memory?)
    (place : t'.get? s.place = t.get? s.place) : Told s format t' (Function.update σ i σ') := by
  have same : ∀ j, (Function.update σ i σ' j).memory? = (σ j).memory? :=
    (Function.forall_update_iff σ fun j σ' => σ'.memory? = (σ j).memory?).mpr
      ⟨memory, fun _ _ => rfl⟩
  rcases told with ⟨j, m, held, stands⟩ | nothing
  · exact .inl ⟨j, m, (same j).trans held, place ▸ stands⟩
  · exact .inr fun j => (same j).trans (nothing j)

theorem Told.of_memory {m : Manifest} (memory : σ'.memory? = some m)
    (stands : Stands format (t'.get? s.place) m) : Told s format t' (Function.update σ i σ') :=
  .inl ⟨i, m, by rwa [update_same], stands⟩

theorem Told.step (lawful : format.Lawful) (staged : Staged s format work t σ)
    (orderly : Orderly s t σ) (told : Told s format t σ) (advance : Advance s format t (σ i) t' σ')
    (well : σ'.Well) : Told s format t' (Function.update σ i σ') := by
  generalize now : σ i = before at advance
  have fit := now ▸ staged.fit i
  cases advance with
  | found => exact told.kept (by rw [now]; rfl) rfl
  | loaded begins writes place stands => exact .of_memory (Stage.memory?_resume well) stands
  | made untouched => exact told.kept (by rw [now]; rfl) untouched.has.entry
  | wrote executable drafted parent =>
      exact told.kept (by rw [now]; rfl)
        (get?_put_apart Spot.draft_not_above_place Spot.place_not_above_draft _ _)
  | @replaced w x there =>
      obtain ⟨writes, place, held, written, -⟩ := fit
      obtain ⟨executable, own⟩ := orderly.draft i w now
      cases there.symm.trans own
      have has := Spot.has_replaced staged.sound (staged.drafted i w now) (dir_of_get?_concat there)
        (.file (Utf8.ofString w.text) executable)
      refine .of_memory (Stage.memory?_resume well) ?_
      rw [has.entry]
      exact Spot.stands_written lawful held written executable
  | failed e untouched => exact well.elim

/-! Whole runs. -/

/-- The next call looks whether there is a manifest, or reads it. -/
inductive Loading (manifest : Path) : Program (Except Error ServerConfigs) → Prop
  | looks {next : Except IoError FileKind → Program (Except Error ServerConfigs)} :
      Loading manifest (.call (.kind manifest true) next)
  | reads {next : Except IoError Octets → Program (Except Error ServerConfigs)} :
      Loading manifest (.call (.readFile manifest) next)

/-- The manifest is what a process makes by its calls of the one that stood in the file at a moment of the
run when the process was about to load it. -/
def Origin (s : Spot manifest) (format : Manifest.Format) (work : ι → Session) (start x : Crowd ι)
    (i : ι) (m : Manifest) : Prop :=
  ∃ moment loaded, Run s.cwd start moment ∧ Run s.cwd moment x ∧
    Loading manifest (moment.programs i) ∧ Stands format (moment.files.get? s.place) loaded ∧
    m = Change.applyAll loaded (work i).changes

theorem Origin.later {start x y : Crowd ι} {m : Manifest} (origin : Origin s format work start x i m)
    (run : Run s.cwd x y) : Origin s format work start y i m := by
  obtain ⟨moment, loaded, before, after, rest⟩ := origin
  exact ⟨moment, loaded, before, after.trans run, rest⟩

theorem loading_program {a : Session} {σ : Stage} (begins : σ = .looking a ∨ σ = .reading a) :
    Loading manifest (σ.program format manifest) := by
  rcases begins with rfl | rfl
  · rw [Stage.program_looking]
    exact .looks
  · exact .reads

/-- A process has the aim it had, or has just loaded. -/
theorem Advance.aim?_cases {σ : Stage} {m : Manifest} (advance : Advance s format t σ t' σ')
    (aim : σ'.aim? = some m) : σ.aim? = some m ∨ ∃ a loaded, (σ = .looking a ∨ σ = .reading a) ∧
      Stands format (t.get? s.place) loaded ∧ m = Change.applyAll loaded a.changes := by
  have well : σ'.Well := by
    cases σ' with
    | ended r => cases r with
      | error e => cases aim
      | ok c => trivial
    | _ => trivial
  cases advance with
  | found => cases aim
  | loaded begins writes place stands =>
      rw [Stage.aim?_resume well] at aim
      exact .inr ⟨_, _, begins, stands, (Option.some.inj aim).symm⟩
  | made untouched => exact .inl aim
  | wrote executable drafted parent => exact .inl aim
  | replaced there =>
      rw [Stage.aim?_resume well] at aim
      exact .inl aim
  | failed e untouched => exact well.elim

/-- What is known at every moment of a run. -/
structure Course (s : Spot manifest) (format : Manifest.Format) (work : ι → Session)
    (start x : Crowd ι) (σ : ι → Stage) : Prop where
  run : Run s.cwd start x
  programs : ∀ i, x.programs i = (σ i).program format manifest
  staged : Staged s format work x.files σ
  outlook : Orderly s x.files σ ∧ Told s format x.files σ ∨ Trapped s x.files σ
  origin : ∀ i m, (σ i).aim? = some m → Origin s format work start x i m

variable {start x y : Crowd ι}

theorem Course.step (lawful : format.Lawful) (course : Course s format work start x σ)
    (step : Step s.cwd i x y) : ∃ σ', Course s format work start y (Function.update σ i σ') := by
  have run : Run s.cwd x y := .single ⟨i, step⟩
  obtain @⟨β, h, programs, c, next, here, on⟩ := step
  have staged := course.staged
  obtain ⟨σ', onward, advance⟩ := advance_call (staged.fit i) here staged.sound staged.plain
    ((course.programs i).symm.trans on)
  refine ⟨σ', course.run.trans run, ?_, staged.step lawful advance, ?_, ?_⟩
  · intro j
    by_cases same : j = i
    · subst same
      rw [update_same, ← onward]
      exact Function.update_self ..
    · rw [update_other same, ← course.programs j]
      exact Function.update_of_ne same ..
  · rcases course.outlook with ⟨orderly, told⟩ | trapped
    · rcases orderly.step advance with orderly' | trapped
      · have well := orderly'.well i
        rw [update_same] at well
        exact .inl ⟨orderly', told.step lawful staged orderly advance well⟩
      · exact .inr trapped
    · exact .inr (trapped.step advance)
  · intro j m aim
    by_cases same : j = i
    · subst same
      rw [update_same] at aim
      rcases advance.aim?_cases aim with before | ⟨a, loaded, begins, stands, made⟩
      · exact (course.origin j m before).later run
      · have loading := course.programs j ▸ @loading_program manifest format a _ begins
        cases staged.own j a begins
        exact ⟨_, loaded, course.run, run, loading, stands, made⟩
    · rw [update_other same] at aim
      exact (course.origin j m aim).later run

theorem course_run (lawful : format.Lawful)
    (begun : Course s format work start start fun i => .looking (work i)) (run : Run s.cwd start x) :
    ∃ σ, Course s format work start x σ := by
  induction run with
  | refl => exact ⟨_, begun⟩
  | tail _ step ih =>
      obtain ⟨σ, course⟩ := ih
      obtain ⟨i, step⟩ := step
      obtain ⟨σ', after⟩ := course.step lawful step
      exact ⟨_, after⟩

/-- Processes that have made no call. -/
def begun (format : Manifest.Format) (manifest : Path) (work : ι → Session) (t : Files) : Crowd ι :=
  ⟨t, fun i => (work i).program format manifest⟩

theorem course_begun (sound : s.Sound t) (plain : s.Plain t) :
    Course s format work (begun format manifest work t) (begun format manifest work t)
      fun i => .looking (work i) where
  run := .refl
  programs _ := rfl
  staged := by
    refine ⟨sound, plain, fun _ => trivial, fun _ _ => nofun, fun i a there => ?_⟩
    rcases there with ⟨⟨⟩⟩ | ⟨⟨⟩⟩
    rfl
  outlook := .inl ⟨⟨fun _ => trivial, fun _ _ => nofun, fun _ _ _ _ => nofun⟩, .inr fun _ => rfl⟩
  origin _ _ := nofun

/-- Once all have returned well, the manifest is what one of them has in memory. -/
theorem remains_of_run [Nonempty ι] (lawful : format.Lawful) (sound : s.Sound t) (plain : s.Plain t)
    (run : Run s.cwd (begun format manifest work t) x)
    (ended : ∀ i, ∃ c, x.programs i = .done (.ok c)) :
    ∃ i c, x.programs i = .done (.ok c) ∧ Stands format (x.files.get? s.place) c.installed ∧
      Origin s format work (begun format manifest work t) x i c.installed := by
  obtain ⟨σ, course⟩ := course_run lawful (course_begun sound plain) run
  obtain ⟨init, parts, _⟩ := Spot.exists_beginning (s := s)
  have finished : ∀ i, ∃ c, x.programs i = .done (.ok c) ∧ σ i = .ended (.ok c) := by
    intro i
    obtain ⟨c, done⟩ := ended i
    exact ⟨c, done, Stage.eq_ended_of_done (Path.parent?_eq parts) ((course.programs i).symm.trans done)⟩
  rcases course.outlook with ⟨-, told⟩ | trapped
  · rcases told with ⟨i, m, held, stands⟩ | nothing
    · obtain ⟨c, done, at_end⟩ := finished i
      rw [at_end] at held
      cases held
      exact ⟨i, c, done, stands, course.origin i _ (by rw [at_end]; rfl)⟩
    · obtain ⟨i⟩ := ‹Nonempty ι›
      obtain ⟨c, -, at_end⟩ := finished i
      have none_held := nothing i
      rw [at_end] at none_held
      cases none_held
  · cases trapped with
    | @failed i ill =>
        obtain ⟨c, -, at_end⟩ := finished i
        rw [at_end] at ill
        exact absurd trivial ill
    | @robbed i w there =>
        obtain ⟨c, -, at_end⟩ := finished i
        cases at_end.symm.trans there
    | @rivals i j w v apart there =>
        obtain ⟨c, -, at_end⟩ := finished i
        cases at_end.symm.trans there

end LanguageHost.Registry
