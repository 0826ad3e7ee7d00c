import LanguageHost.Proofs.Registry.Rivals

/-! Processes that change one manifest one after the other lose nothing of each other. Where they overlap,
what one has saved since another has loaded is lost with the other's next save. -/
namespace LanguageHost.Registry
open Files Install
open Program (Runs)
open Install.Spot (Stands Here Agrees)

section
variable {ι : Type} [DecidableEq ι]

/-- A process that makes all its calls, with nobody else in between, and returns well. -/
def Turn (cwd : Path) (i : ι) (x y : Crowd ι) : Prop :=
  Relation.ReflTransGen (Step cwd i) x y ∧ ∃ c, y.programs i = .done (.ok c)

/-- Processes that take their turns in an order. -/
inductive Turns (cwd : Path) : List ι → Crowd ι → Crowd ι → Prop
  | nil {x : Crowd ι} : Turns cwd [] x x
  | cons {i : ι} {is : List ι} {x y z : Crowd ι} : Turn cwd i x y → Turns cwd is y z →
      Turns cwd (i :: is) x z

variable {manifest : Path} {s : Spot manifest} {format : Manifest.Format} {t t' : Files} {i : ι}
  {x y z : Crowd ι}

/-- The steps of one process are a run of its program. -/
theorem runs_of_steps (steps : Relation.ReflTransGen (Step s.cwd i) x y) :
    (∀ j, j ≠ i → y.programs j = x.programs j) ∧ ∀ {r t'}, Runs s.Here y.files (y.programs i) r t' →
      Runs s.Here x.files (x.programs i) r t' := by
  induction steps using Relation.ReflTransGen.head_induction_on with
  | refl => exact ⟨fun _ _ => rfl, id⟩
  | head step _ ih =>
      obtain @⟨β, h, programs, c, next, here, on⟩ := step
      obtain ⟨others, runs⟩ := ih
      refine ⟨fun j apart => (others j apart).trans (Function.update_of_ne apart ..), fun run => ?_⟩
      have later := runs run
      dsimp only at later
      rw [Function.update_self] at later
      change Runs s.Here h.files (programs i) _ _
      rw [on]
      exact .call rfl here later

/-- What the calls of an instance leave, if none of them fails. -/
theorem performed_all (lawful : format.Lawful) {c c' : ServerConfigs} {changes : List Change}
    (agrees : s.Agrees format c t) (ordered : ∀ change ∈ changes, change.Ordered)
    (run : Runs s.Here t (calls c changes).run (some (.ok c')) t') :
    s.Agrees format c' t' ∧ c'.installed = Change.applyAll c.installed changes := by
  induction changes generalizing c t with
  | nil =>
      cases run with
      | done => exact ⟨agrees, rfl⟩
  | cons change rest ih =>
      change Runs s.Here t (Program.bind (change.perform c).run _) _ _ at run
      rcases Program.runs_bind run with ⟨⟨⟩, _⟩ | ⟨r, t₁, first, later⟩
      have ended := agrees.performed lawful (ordered change List.mem_cons_self) first
      cases r with
      | error e => cases later
      | ok c₁ =>
          obtain ⟨agrees₁, made⟩ := ended
          obtain ⟨agrees', all⟩ := ih agrees₁ (fun o ho => ordered o (.tail _ ho)) later
          exact ⟨agrees', by rw [all, made, Change.applyAll_cons]⟩

/-- What a process leaves that is alone with the manifest. -/
theorem Session.performed (lawful : format.Lawful) (a : Session) (sound : s.Sound t)
    (plain : s.Plain t) {c : ServerConfigs}
    (run : Runs s.Here t (a.program format manifest) (some (.ok c)) t') :
    s.Agrees format c t' ∧ ∃ m, Stands format (t.get? s.place) m ∧
      c.installed = Change.applyAll m a.changes := by
  change Runs s.Here t (Program.bind (ServerConfigs.loadAs format manifest a.user).run _) _ _ at run
  rcases Program.runs_bind run with ⟨⟨⟩, _⟩ | ⟨r, t₁, first, later⟩
  cases r with
  | error e => cases later
  | ok loaded =>
      obtain ⟨rfl, writes, place, stands⟩ := Spot.stands_of_load sound plain first
      obtain ⟨agrees, all⟩ := performed_all lawful ⟨writes, place, sound, plain, stands⟩ a.ordered later
      exact ⟨agrees, _, stands, all⟩

/-- The manifest has what memory has for the languages that the calls have named. -/
def Kept (s : Spot manifest) (format : Manifest.Format) (t : Files) (c : ServerConfigs)
    (changes : List Change) : Prop :=
  ∃ m, Stands format (t.get? s.place) m ∧ ∀ change ∈ changes, ∀ language ∈ change.languages,
    Table.get? language m = Table.get? language c.installed

variable {work : ι → Session}

/-- No two processes name one language. -/
def Apart (work : ι → Session) : Prop :=
  ∀ i j, i ≠ j → ∀ change ∈ (work i).changes, ∀ other ∈ (work j).changes,
    ∀ language ∈ change.languages, language ∉ other.languages

omit [DecidableEq ι] in
/-- Calls of a process leave what others have entered. -/
theorem Kept.after {c c' : ServerConfigs} {m : Manifest} {j : ι} (apart : Apart work) (other : j ≠ i)
    (kept : Kept s format t c' (work j).changes) (stood : Stands format (t.get? s.place) m)
    (agrees : s.Agrees format c t') (made : c.installed = Change.applyAll m (work i).changes) :
    Kept s format t' c' (work j).changes := by
  obtain ⟨m', stands, entries⟩ := kept
  obtain rfl := stands.unique stood
  refine ⟨c.installed, agrees.stands, fun change called language named => ?_⟩
  rw [made, Change.applyAll_other fun change' called' =>
    apart j i other change called change' called' language named]
  exact entries change called language named

/-- After their turns the updates of all are in the manifest, and those that were in it before. -/
theorem kept_of_turns (lawful : format.Lawful) (apart : Apart work) {order : List ι}
    (once : order.Nodup) (turns : Turns s.cwd order x y)
    (fresh : ∀ i ∈ order, x.programs i = (work i).program format manifest)
    (sound : s.Sound x.files) (plain : s.Plain x.files) :
    (∀ i ∈ order, ∃ c, y.programs i = .done (.ok c) ∧ Kept s format y.files c (work i).changes) ∧
      ∀ j ∉ order, y.programs j = x.programs j ∧ ∀ c, Kept s format x.files c (work j).changes →
        Kept s format y.files c (work j).changes := by
  induction turns with
  | nil => exact ⟨nofun, fun j _ => ⟨rfl, fun _ => id⟩⟩
  | @cons i is x y z turn _ ih =>
      obtain ⟨absent, once⟩ := List.nodup_cons.mp once
      obtain ⟨steps, c, done⟩ := turn
      obtain ⟨others, runs⟩ := runs_of_steps steps
      have run : Runs s.Here y.files (y.programs i) (some (.ok c)) y.files := by
        rw [done]
        exact .done
      have whole := runs run
      rw [fresh i List.mem_cons_self] at whole
      obtain ⟨agrees, m, stood, made⟩ := (work i).performed lawful sound plain whole
      have fresh' : ∀ j ∈ is, y.programs j = (work j).program format manifest := by
        intro j later
        have apart : j ≠ i := by
          rintro rfl
          exact absent later
        rw [others j apart, fresh j (.tail _ later)]
      obtain ⟨laterKept, restKept⟩ := ih once fresh' agrees.sound agrees.plain
      constructor
      · intro k hk
        rcases List.mem_cons.mp hk with rfl | later
        · obtain ⟨same, kept⟩ := restKept k absent
          exact ⟨c, same.trans done, kept c ⟨c.installed, agrees.stands, fun _ _ _ _ => rfl⟩⟩
        · exact laterKept k later
      · intro j hj
        rw [List.mem_cons, not_or] at hj
        obtain ⟨same, kept⟩ := restKept j hj.2
        exact ⟨same.trans (others j hj.1),
          fun c' before => kept c' (before.after apart hj.1 stood agrees made)⟩

/-- Processes that load one manifest and change it, each call of each at any time. Once all have returned
well, the manifest is what one of them has in memory: what stood there when that one loaded it, changed by
its calls. Processes that take turns, and name no language of each other's, all have their updates in the
manifest. -/
theorem one_remains_and_turns_keep [Nonempty ι] (s : Spot manifest) (lawful : format.Lawful)
    (work : ι → Session) (sound : s.Sound t) (plain : s.Plain t) :
    (∀ x, Run s.cwd (begun format manifest work t) x → (∀ i, ∃ c, x.programs i = .done (.ok c)) →
      ∃ i c, x.programs i = .done (.ok c) ∧ Stands format (x.files.get? s.place) c.installed ∧
        Origin s format work (begun format manifest work t) x i c.installed) ∧
    (Apart work → ∀ order x, order.Nodup → Turns s.cwd order (begun format manifest work t) x →
      ∀ i ∈ order, ∃ c, x.programs i = .done (.ok c) ∧
        Kept s format x.files c (work i).changes) := by
  constructor
  · exact fun x run ended => remains_of_run lawful sound plain run ended
  · exact fun apart order x once turns =>
      (kept_of_turns lawful apart once turns (fun _ _ => rfl) sound plain).1

end

/-! Two processes on a machine that refuses nothing. -/

namespace Sample
open Relation (ReflTransGen)

def language : Bool → String
  | false => "a"
  | true => "b"

/-- Each of the two enters a server for a language of its own. -/
def both (a : Bool) : Session where
  user := .empty
  changes := [.register (language a) (server "/s")]
  ordered c h := by
    rw [List.mem_singleton.mp h]
    exact List.Pairwise.nil

theorem apart_both : Apart both := by
  intro i j apart change called other called' named there there'
  cases List.mem_singleton.mp called
  cases List.mem_singleton.mp called'
  have same := (List.mem_singleton.mp there).symm.trans (List.mem_singleton.mp there')
  have names : ∀ i j, i ≠ j → language i ≠ language j := by decide
  exact names i j apart same

/-- An instance with a manifest in memory. -/
def holding (m : Manifest) : ServerConfigs := ⟨Manifest.json, manifest, m, []⟩

/-- What a process makes of a manifest. -/
def entered (m : Manifest) (a : Bool) : Manifest := Change.applyAll m (both a).changes

def content (m : Manifest) : Octets := Utf8.ofString ((Manifest.toJson m).pretty 0)

def crowd (entries : List (String × Files)) (σ : Bool → Stage) : Crowd Bool :=
  ⟨files entries, fun i => (σ i).program Manifest.json manifest⟩

/-- A call that takes a process from one stage to another. -/
def Goes (x y : List (String × Files) × Stage) : Prop :=
  ∃ (β : Type) (c : Call β) (next : β → Program (Except Error ServerConfigs)),
    x.2.program Manifest.json manifest = .call c next ∧
    ((host (files x.1) (fun _ => none) 0).answer c).2.files = files y.1 ∧
    next ((host (files x.1) (fun _ => none) 0).answer c).1 = y.2.program Manifest.json manifest

theorem step_of_goes {i : Bool} {σ : Bool → Stage} {x y : List (String × Files) × Stage}
    (goes : Goes x y) : Step spot.cwd i (crowd x.1 (Function.update σ i x.2))
      (crowd y.1 (Function.update σ i y.2)) := by
  obtain ⟨β, c, next, on, left, onward⟩ := goes
  have next_call : (crowd x.1 (Function.update σ i x.2)).programs i = .call c next := by
    rw [← on]
    change ((Function.update σ i x.2) i).program _ _ = _
    rw [update_same]
  have step : Step spot.cwd i _ _ :=
    .call (h := host (files x.1) (fun _ => none) 0) rfl next_call
  have others : Function.update (crowd x.1 (Function.update σ i x.2)).programs i
      (y.2.program Manifest.json manifest) = (crowd y.1 (Function.update σ i y.2)).programs := by
    funext j
    change _ = ((Function.update σ i y.2) j).program _ _
    by_cases same : j = i
    · subst same
      rw [update_same, Function.update_self]
    · rw [update_other same, Function.update_of_ne same]
      change ((Function.update σ i x.2) j).program _ _ = _
      rw [update_other same]
  rw [left, onward, others] at step
  exact step

theorem steps_of_goes {i : Bool} {σ : Bool → Stage} {entries entries' : List (String × Files)}
    {σ' : Stage} (goes : ReflTransGen Goes (entries, σ i) (entries', σ')) :
    ReflTransGen (Step spot.cwd i) (crowd entries σ) (crowd entries' (Function.update σ i σ')) := by
  have steps : ReflTransGen (Step spot.cwd i) (crowd entries (Function.update σ i (σ i)))
      (crowd entries' (Function.update σ i σ')) :=
    goes.lift (fun x => crowd x.1 (Function.update σ i x.2)) fun _ _ => step_of_goes
  rwa [Function.update_eq_self] at steps

theorem parent_manifest : manifest.parent? = some ⟨"/m"⟩ := rfl

theorem draft_manifest : Manifest.draftPath manifest = ⟨"/m/i.json.tmp"⟩ := rfl

/-- A save. -/
theorem goes_save (old : Option Octets) (w : Save) (writes : w.next.format = Manifest.json)
    (place : w.next.path = manifest) : ReflTransGen Goes (standing old, .making w)
      (standing (some (Utf8.ofString w.text)), Stage.resume w.next w.rest) := by
  have home : Goes (standing old, .making w) (standing old, .writing w) := by
    refine ⟨_, _, _, Stage.program_making w parent_manifest, ?_⟩
    rw [answer_home rfl old]
    exact ⟨rfl, rfl⟩
  have draft : Goes (standing old, .writing w) (drafted old (Utf8.ofString w.text), .replacing w) := by
    refine ⟨_, _, _, Program.io_bind_eq _ _, ?_⟩
    rw [draft_manifest, answer_draft rfl old]
    refine ⟨rfl, ?_⟩
    rw [Stage.program, draft_manifest]
  have replace : Goes (drafted old (Utf8.ofString w.text), .replacing w)
      (standing (some (Utf8.ofString w.text)), Stage.resume w.next w.rest) := by
    refine ⟨_, _, _, Program.io_bind_eq _ _, ?_⟩
    rw [draft_manifest, answer_replace rfl old]
    exact ⟨rfl, (Stage.program_resume writes place).symm⟩
  exact .tail (.tail (.single home) draft) replace

theorem kind_eq (old : Option Octets) :
    ((host (files (standing old)) (fun _ => none) 0).answer (.kind manifest true)).1.isOk =
      old.isSome := by
  rw [Spot.kind_manifest (s := spot) rfl (sound old) (plain old)]
  cases old <;> rfl

theorem goes_look_missing (a : Bool) : Goes (standing none, .looking (both a))
    (standing none, Stage.resume (holding []) (both a).changes) := by
  refine ⟨_, _, _, Stage.program_looking (both a), rfl, ?_⟩
  rw [kind_eq none]
  exact (Stage.program_resume rfl rfl).symm

/-- A load of what has been saved. -/
theorem goes_load {m : Manifest} (ordered : m.Ordered) (a : Bool) :
    ReflTransGen Goes (standing (some (content m)), .looking (both a))
      (standing (some (content m)), Stage.resume (holding m) (both a).changes) := by
  have look : Goes (standing (some (content m)), .looking (both a))
      (standing (some (content m)), .reading (both a)) := by
    refine ⟨_, _, _, Stage.program_looking (both a), rfl, ?_⟩
    rw [kind_eq (some _)]
    rfl
  refine .tail (.single look) ⟨_, _, _, rfl, rfl, ?_⟩
  have text : Utf8.toString? (content m) = some ((Manifest.toJson m).pretty 0) :=
    Utf8.toString?_ofString _
  have read : Spot.received Manifest.json manifest (both a).user (.ok (content m)) =
      .ok (holding m) := by
    simp only [Spot.received, text, Manifest.lawful_json.reads m _ ordered rfl]
    rfl
  rw [Spot.answer_read (s := spot) rfl (sound (some _)) (plain (some _)) (fun _ => rfl) rfl]
  simp only [read]
  exact (Stage.program_resume rfl rfl).symm

/-- What a process does after it has loaded a manifest. -/
theorem goes_enter (old : Option Octets) (m : Manifest) (a : Bool) :
    ReflTransGen Goes (standing old, Stage.resume (holding m) (both a).changes)
      (standing (some (content (entered m a))), .ended (.ok (holding (entered m a)))) :=
  goes_save old ⟨m, holding (entered m a), (Manifest.toJson (entered m a)).pretty 0, []⟩ rfl rfl

theorem ordered_entered (a : Bool) : (entered [] a).Ordered :=
  Manifest.ordered_nil.insertAll fun e he => by
    cases List.mem_singleton.mp he
    exact List.Pairwise.nil

/-- Two processes that have made no call. -/
def crowd₀ : Crowd Bool := begun Manifest.json manifest both (files (standing none))

/-- One process and then the other enters its server. -/
theorem turns : ∃ x, Turns spot.cwd [false, true] crowd₀ x := by
  have first := steps_of_goes (i := false) (σ := fun i => .looking (both i))
    (.trans (.single (goes_look_missing false)) (goes_enter none [] false))
  have second := steps_of_goes (i := true)
    (σ := Function.update (fun i => .looking (both i)) false (.ended (.ok (holding (entered [] false)))))
    ((goes_load (ordered_entered false) true).trans (goes_enter (some _) _ true))
  exact ⟨_, .cons ⟨first, _, rfl⟩ (.cons ⟨second, _, rfl⟩ .nil)⟩

theorem run_of_steps {i : Bool} {x y : Crowd Bool} (steps : ReflTransGen (Step spot.cwd i) x y) :
    Run spot.cwd x y :=
  steps.lift id fun _ _ step => ⟨i, step⟩

/-- Both processes find no manifest; then the one enters its server, and the other. -/
theorem overlap : ∃ x, Run spot.cwd crowd₀ x ∧
    x.files = files (standing (some (content (entered [] true)))) ∧
    ∀ i, x.programs i = .done (.ok (holding (entered [] i))) := by
  let σ₀ : Bool → Stage := fun i => .looking (both i)
  let σ₁ := Function.update σ₀ false (Stage.resume (holding []) (both false).changes)
  let σ₂ := Function.update σ₁ true (Stage.resume (holding []) (both true).changes)
  let σ₃ := Function.update σ₂ false (.ended (.ok (holding (entered [] false))))
  have looks : Run spot.cwd crowd₀ (crowd (standing none) σ₁) :=
    run_of_steps (steps_of_goes (σ := σ₀) (.single (goes_look_missing false)))
  have looks' : Run spot.cwd (crowd (standing none) σ₁) (crowd (standing none) σ₂) :=
    run_of_steps (steps_of_goes (σ := σ₁) (.single (goes_look_missing true)))
  have enters : Run spot.cwd (crowd (standing none) σ₂) (crowd _ σ₃) :=
    run_of_steps (steps_of_goes (i := false) (σ := σ₂) (goes_enter none [] false))
  have enters' := run_of_steps (steps_of_goes (i := true) (σ := σ₃) (goes_enter (some (content (entered [] false))) [] true))
  refine ⟨_, ((looks.trans looks').trans enters).trans enters', rfl, fun i => ?_⟩
  cases i <;> rfl

end Sample

/-- Of two processes that overlap one has its updates in the manifest; of two that take turns, both. -/
theorem overlap_keeps_one_and_turns_both :
    (∃ x i, Run Sample.spot.cwd Sample.crowd₀ x ∧ Stands Manifest.json
      (x.files.get? Sample.spot.place) (Sample.entered [] i)) ∧
    ∃ x, Turns Sample.spot.cwd [false, true] Sample.crowd₀ x ∧ ∀ i, ∃ c, x.programs i = .done (.ok c) ∧
      Kept Sample.spot Manifest.json x.files c (Sample.both i).changes := by
  have law := one_remains_and_turns_keep Sample.spot Manifest.lawful_json Sample.both
    (Sample.sound none) (Sample.plain none)
  constructor
  · obtain ⟨x, run, -, ended⟩ := Sample.overlap
    obtain ⟨i, c, done, stands, -⟩ := law.1 x run fun i => ⟨_, ended i⟩
    cases done.symm.trans (ended i)
    exact ⟨x, i, run, stands⟩
  · obtain ⟨x, turns⟩ := Sample.turns
    refine ⟨x, turns, fun i => ?_⟩
    exact law.2 Sample.apart_both [false, true] x (by decide) turns i (by cases i <;> decide)

/-- A process whose load comes before another's save takes that one's update back with its own save. -/
theorem overlapping_save_is_lost : Apart Sample.both ∧ ¬ ∀ x, Run Sample.spot.cwd Sample.crowd₀ x →
    (∀ i, ∃ c, x.programs i = .done (.ok c)) →
    ∀ i c, x.programs i = .done (.ok c) →
      Kept Sample.spot Manifest.json x.files c (Sample.both i).changes := by
  refine ⟨Sample.apart_both, fun all_kept => ?_⟩
  obtain ⟨x, run, files, ended⟩ := Sample.overlap
  obtain ⟨m, stands, entries⟩ := all_kept x run (fun i => ⟨_, ended i⟩) false _ (ended false)
  have last : Stands Manifest.json (x.files.get? Sample.spot.place) (Sample.entered [] true) := by
    rw [files]
    exact Spot.stands_written Manifest.lawful_json (Sample.ordered_entered true) rfl false
  obtain rfl := stands.unique last
  have lost := entries _ List.mem_cons_self "a" List.mem_cons_self
  exact absurd lost (by decide)

end LanguageHost.Registry
