import LanguageHost.Proofs.Registry.History

/-! How far a process is that loads a manifest and then changes it, told by the next call that it makes,
and what each of its calls does to the files. -/
namespace LanguageHost

namespace Program

/-- A file operation and what comes after it, by its answer. -/
theorem io_bind_eq (c : Call (Except IoError α)) (f : α → Fallible β) :
    (io c >>= f).run = .call c fun r => match r with
      | .ok a => (f a).run
      | .error e => .done (.error (.io e)) := by
  change Program.call _ _ = Program.call _ _
  congr 1
  funext r
  cases r <;> rfl

end Program

namespace Change

/-- What calls make of a manifest, one after the other. -/
def applyAll (m : Manifest) (changes : List Change) : Manifest :=
  changes.foldl (fun m change => (change.applied? m).getD m) m

variable {m : Manifest} {changes : List Change}

theorem applyAll_cons (change : Change) :
    applyAll m (change :: changes) = applyAll ((change.applied? m).getD m) changes := rfl

/-- Only the entries of the languages that calls name change. -/
theorem applyAll_other {language : String} (other : ∀ change ∈ changes, language ∉ change.languages) :
    Table.get? language (applyAll m changes) = Table.get? language m := by
  induction changes generalizing m with
  | nil => rfl
  | cons change rest ih =>
      rw [applyAll_cons, ih fun c hc => other c (List.mem_cons_of_mem _ hc)]
      cases applied : change.applied? m with
      | none => rfl
      | some m' => exact applied?_other applied (other change List.mem_cons_self)

end Change

namespace Registry
open Files Install
open Program (Fallible io)
open Install.Spot (Stands Drafted)

/-- What a process does with a manifest: it is loaded for the user, and the calls are made on the
instance. -/
structure Session where
  user : UserConfig
  changes : List Change
  ordered : ∀ change ∈ changes, change.Ordered

def calls (c : ServerConfigs) (changes : List Change) : Fallible ServerConfigs :=
  changes.foldlM Change.perform c

def Session.program (format : Manifest.Format) (manifest : Path) (a : Session) :
    Program (Except Error ServerConfigs) :=
  (do calls (← ServerConfigs.loadAs format manifest a.user) a.changes : Fallible ServerConfigs).run

/-- A save underway: what memory is until it is done and after it, the text, and the calls that are
left. -/
structure Save where
  before : Manifest
  next : ServerConfigs
  text : String
  rest : List Change

inductive Stage where
  /-- about to look whether there is a manifest -/
  | looking (a : Session)
  /-- about to read it -/
  | reading (a : Session)
  /-- about to make its directory -/
  | making (w : Save)
  /-- about to write the draft -/
  | writing (w : Save)
  /-- about to put the draft in the manifest's place -/
  | replacing (w : Save)
  | ended (r : Except Error ServerConfigs)

namespace Stage

/-- Where calls on an instance get before the next file operation. -/
def resume (c : ServerConfigs) : List Change → Stage
  | [] => .ended (.ok c)
  | change :: rest => match change.applied? c.installed with
    | none => resume c rest
    | some m => match c.format.write m with
      | .error e => .ended (.error e)
      | .ok text => .making ⟨c.installed, { c with installed := m }, text, rest⟩

def program (format : Manifest.Format) (manifest : Path) : Stage → Program (Except Error ServerConfigs)
  | .looking a => a.program format manifest
  | .reading a => .call (.readFile manifest) fun r => match Spot.received format manifest a.user r with
      | .ok c => (calls c a.changes).run
      | .error e => .done (.error e)
  | .making w => (do Manifest.publish manifest w.text; calls w.next w.rest : Fallible ServerConfigs).run
  | .writing w => (do
      io (.writeFile (Manifest.draftPath manifest) (Utf8.ofString w.text))
      io (.rename (Manifest.draftPath manifest) manifest)
      calls w.next w.rest : Fallible ServerConfigs).run
  | .replacing w => (do
      io (.rename (Manifest.draftPath manifest) manifest)
      calls w.next w.rest : Fallible ServerConfigs).run
  | .ended r => .done r

/-- No call has failed so far. -/
def Well : Stage → Prop
  | .ended (.error _) => False
  | _ => True

/-- The manifest has not been read yet. -/
def Loads : Stage → Prop
  | .looking _ | .reading _ => True
  | _ => False

/-- What memory holds, once there is an instance. -/
def memory? : Stage → Option Manifest
  | .making w | .writing w | .replacing w => some w.before
  | .ended (.ok c) => some c.installed
  | _ => none

/-- What memory will hold at the end, once there is an instance. -/
def aim? : Stage → Option Manifest
  | .making w | .writing w | .replacing w => some (Change.applyAll w.next.installed w.rest)
  | .ended (.ok c) => some c.installed
  | _ => none

/-- The saves are of manifests in order, to the right place. -/
def Fit (format : Manifest.Format) (manifest : Path) : Stage → Prop
  | .making w | .writing w | .replacing w => w.next.format = format ∧ w.next.path = manifest ∧
      w.next.installed.Ordered ∧ format.write w.next.installed = .ok w.text ∧
      ∀ change ∈ w.rest, change.Ordered
  | _ => True

variable {format : Manifest.Format} {manifest : Path} {c : ServerConfigs} {changes : List Change}

theorem program_resume (writes : c.format = format) (place : c.path = manifest) :
    (resume c changes).program format manifest = (calls c changes).run := by
  induction changes generalizing c with
  | nil => rfl
  | cons change rest ih =>
      have first : calls c (change :: rest) = change.perform c >>= fun c => calls c rest := rfl
      rw [first, Change.perform_eq, resume]
      cases applied : change.applied? c.installed with
      | none => exact ih writes place
      | some m =>
          simp only [ServerConfigs.adopt, Manifest.save]
          cases written : c.format.write m with
          | error e => rfl
          | ok text =>
              rw [place]
              change _ = ((Manifest.publish manifest text >>= fun _ => pure _) >>= _ :
                Fallible ServerConfigs).run
              rw [bind_assoc]
              rfl

theorem program_looking (a : Session) : (Stage.looking a).program format manifest =
    .call (.kind manifest true) fun found =>
      if found.isOk then (Stage.reading a).program format manifest
      else (calls (Spot.missing format manifest a.user) a.changes).run := by
  change Program.bind (ServerConfigs.loadAs format manifest a.user).run _ = _
  rw [Spot.loadAs_eq, Program.bind]
  congr 1
  funext found
  split
  · rw [Program.bind, program]
    congr 1
    funext r
    cases Spot.received format manifest a.user r <;> rfl
  · rfl

theorem program_making (w : Save) {dir : Path} (parent : manifest.parent? = some dir) :
    (Stage.making w).program format manifest = .call (.makeDirs dir) fun r => match r with
      | .ok _ => (Stage.writing w).program format manifest
      | .error e => .done (.error (.io e)) := by
  rw [program, Manifest.publish, parent]
  simp only [bind_assoc]
  rw [Program.io_bind_eq]
  congr 1
  funext r
  cases r <;> rfl

/-- A process whose program is done has no call left. -/
theorem eq_ended_of_done {p : Path} (parent : manifest.parent? = some p) {σ : Stage}
    {r : Except Error ServerConfigs} (done : σ.program format manifest = .done r) : σ = .ended r := by
  cases σ with
  | looking a => rw [program_looking] at done; cases done
  | reading a => cases done
  | making w => rw [program_making w parent] at done; cases done
  | writing w => cases done
  | replacing w => cases done
  | ended r' => cases done; rfl

/-- Calls on an instance either come to their end, with memory as it is, or are refused, or get to the
save of what the next of them makes of memory. -/
theorem resume_cases (c : ServerConfigs) (changes : List Change) :
    (resume c changes = .ended (.ok c) ∧ Change.applyAll c.installed changes = c.installed) ∨
      (∃ e, resume c changes = .ended (.error e)) ∨
      ∃ change m text rest, (∀ other ∈ change :: rest, other ∈ changes) ∧
        change.applied? c.installed = some m ∧ c.format.write m = .ok text ∧
        Change.applyAll m rest = Change.applyAll c.installed changes ∧
        resume c changes = .making ⟨c.installed, { c with installed := m }, text, rest⟩ := by
  induction changes with
  | nil => exact .inl ⟨rfl, rfl⟩
  | cons change rest ih =>
      rw [Change.applyAll_cons, resume]
      cases applied : change.applied? c.installed with
      | none =>
          rcases ih with ended | refused | ⟨next, m, text, rest', later, found⟩
          · exact .inl ended
          · exact .inr (.inl refused)
          · exact .inr (.inr ⟨next, m, text, rest', fun o ho => .tail _ (later o ho), found⟩)
      | some m =>
          cases written : c.format.write m with
          | error e => exact .inr (.inl ⟨e, by simp only [written]⟩)
          | ok text =>
              exact .inr (.inr ⟨change, m, text, rest, fun _ ho => ho, applied, written, rfl,
                by simp only [written]⟩)

/-- Calls on an instance load nothing and have written no draft. -/
theorem resume_settled (c : ServerConfigs) (changes : List Change) :
    (∃ r, resume c changes = .ended r) ∨ ∃ w, resume c changes = .making w := by
  rcases resume_cases c changes with ⟨ended, _⟩ | ⟨e, refused⟩ | ⟨_, _, _, _, _, _, _, _, making⟩
  · exact .inl ⟨_, ended⟩
  · exact .inl ⟨_, refused⟩
  · exact .inr ⟨_, making⟩

theorem resume_ne_replacing (w : Save) : resume c changes ≠ .replacing w := by
  rcases resume_settled c changes with ⟨r, eq⟩ | ⟨v, eq⟩ <;> rw [eq] <;> exact nofun

theorem not_loads_resume : ¬ (resume c changes).Loads := by
  rcases resume_settled c changes with ⟨r, eq⟩ | ⟨v, eq⟩ <;> rw [eq] <;> exact nofun

theorem memory?_resume (well : (resume c changes).Well) :
    (resume c changes).memory? = some c.installed := by
  rcases resume_cases c changes with ⟨ended, _⟩ | ⟨e, refused⟩ | ⟨_, _, _, _, _, _, _, _, making⟩
  · rw [ended]; rfl
  · rw [refused] at well; exact well.elim
  · rw [making]; rfl

theorem aim?_resume (well : (resume c changes).Well) :
    (resume c changes).aim? = some (Change.applyAll c.installed changes) := by
  rcases resume_cases c changes with ⟨ended, same⟩ | ⟨e, refused⟩ | ⟨_, _, _, _, _, _, _, same, making⟩
  · rw [ended, same]; rfl
  · rw [refused] at well; exact well.elim
  · rw [making, ← same]; rfl

theorem fit_resume (writes : c.format = format) (place : c.path = manifest)
    (held : c.installed.Ordered) (ordered : ∀ change ∈ changes, change.Ordered) :
    (resume c changes).Fit format manifest := by
  rcases resume_cases c changes with ⟨ended, _⟩ | ⟨e, refused⟩ |
    ⟨change, m, text, rest, later, applied, written, _, making⟩
  · rw [ended]; trivial
  · rw [refused]; trivial
  · rw [making]
    refine ⟨writes, place, ?_, writes ▸ written, fun c hc => ordered c (later c (.tail _ hc))⟩
    exact Change.applied?_ordered held (ordered change (later change List.mem_cons_self)) applied

end Stage

open Stage (resume)
variable {manifest : Path} {s : Spot manifest} {format : Manifest.Format} {t t' : Files}

/-- Nothing has happened to the manifest and the draft. -/
structure Untouched (s : Spot manifest) (t t' : Files) : Prop where
  has : s.Has (t.get? s.place) t'
  draft : t'.get? s.draft = t.get? s.draft

/-- What one call of a process does. -/
inductive Advance (s : Spot manifest) (format : Manifest.Format) (t : Files) :
    Stage → Files → Stage → Prop
  | found {a : Session} : Advance s format t (.looking a) t (.reading a)
  | loaded {σ : Stage} {a : Session} {c : ServerConfigs} : σ = .looking a ∨ σ = .reading a →
      c.format = format → c.path = manifest → Stands format (t.get? s.place) c.installed →
      Advance s format t σ t (resume c a.changes)
  | made {w : Save} {t' : Files} : Untouched s t t' →
      Advance s format t (.making w) t' (.writing w)
  | wrote {w : Save} (executable : Bool) : s.Drafted t → (∃ es, t.get? s.home = some (.dir es)) →
      Advance s format t (.writing w)
        (t.put (some (.file (Utf8.ofString w.text) executable)) s.draft) (.replacing w)
  | replaced {w : Save} {x : Files} : t.get? s.draft = some x →
      Advance s format t (.replacing w) ((t.put none s.draft).put (some x) s.place)
        (resume w.next w.rest)
  | failed {σ : Stage} {t' : Files} (e : Error) : Untouched s t t' →
      Advance s format t σ t' (.ended (.error e))

theorem Untouched.refl (sound : s.Sound t) : Untouched s t t := ⟨⟨sound, rfl⟩, rfl⟩

theorem Untouched.of_eq (sound : s.Sound t) (same : t' = t) : Untouched s t t' := by
  rw [same]
  exact .refl sound

theorem Untouched.put_new {q : List String} (untouched : Untouched s t t') (pre : q <+: s.home)
    (ne : q ≠ []) (absent : t'.get? q = none) : Untouched s t (t'.put (some empty) q) where
  has := untouched.has.put_new pre ne absent
  draft := by
    have apart : ¬ s.draft <+: q := fun above => Spot.not_above_home (above.trans pre)
    rw [get?_put_empty ne absent apart, untouched.draft]

theorem Untouched.plain (untouched : Untouched s t t') (plain : s.Plain t) : s.Plain t' :=
  fun target there => plain target (untouched.has.entry ▸ there)

theorem Untouched.drafted (untouched : Untouched s t t') (drafted : s.Drafted t) : s.Drafted t' :=
  fun x there => drafted x (untouched.draft ▸ there)

/-- The calls of a process are those of its stage. -/
theorem advance_call {σ : Stage} (fit : σ.Fit format manifest) {h : Host} (here : h.cwd = s.cwd)
    (sound : s.Sound h.files) (plain : s.Plain h.files) {c : Call β}
    {next : β → Program (Except Error ServerConfigs)} (on : σ.program format manifest = .call c next) :
    ∃ σ', next (h.answer c).1 = σ'.program format manifest ∧
      Advance s format h.files σ (h.answer c).2.files σ' := by
  cases σ with
  | looking a =>
      rw [Stage.program_looking] at on
      cases on
      beta_reduce
      rw [Spot.kind_manifest here sound plain]
      have same : (h.answer (.kind manifest true)).2.files = h.files := rfl
      rw [same]
      split
      · exact ⟨_, rfl, .found⟩
      · next absent =>
          refine ⟨_, (Stage.program_resume rfl rfl).symm, .loaded (.inl rfl) rfl rfl ?_⟩
          have nothing : h.files.get? s.place = none := by simpa using absent
          exact nothing ▸ .missing
  | reading a =>
      cases on
      have same : (h.answer (.readFile manifest)).2.files = h.files := h.files_look _
      rw [same]
      beta_reduce
      cases got : Spot.received format manifest a.user (h.answer (.readFile manifest)).1 with
      | error e => exact ⟨.ended (.error e), rfl, .failed e (.refl sound)⟩
      | ok c =>
          obtain ⟨writes, place, stands⟩ := Spot.stands_of_received here sound plain got
          exact ⟨_, (Stage.program_resume writes place).symm, .loaded (.inr rfl) writes place stands⟩
  | making w =>
      obtain ⟨init, parts, _⟩ := Spot.exists_beginning (s := s)
      have parent := Path.parent?_eq parts
      have first := @Stage.program_making format manifest w _ parent
      rw [first] at on
      cases on
      have untouched : Untouched s h.files (h.answer (.makeDirs _)).2.files :=
        Spot.makeHome_keeps here parent (fun _ kept => kept.has.sound) (fun _ _ kept => kept.put_new)
          (.refl sound)
      cases answer : (h.answer (.makeDirs _)).1 with
      | error e => exact ⟨.ended (.error (.io e)), rfl, .failed _ untouched⟩
      | ok u => exact ⟨.writing w, rfl, .made untouched⟩
  | writing w =>
      rw [Stage.program, Program.io_bind_eq] at on
      cases on
      rcases Spot.write_draft_cases here sound (Utf8.ofString w.text)
        with ⟨e, refused, same⟩ | ⟨executable, ok, drafted, parent, files⟩
      · exact ⟨.ended (.error (.io e)), by rw [refused]; rfl, .failed _ (.of_eq sound same)⟩
      · exact ⟨.replacing w, by rw [ok]; rfl, files ▸ .wrote executable drafted parent⟩
  | replacing w =>
      rw [Stage.program, Program.io_bind_eq] at on
      cases on
      obtain ⟨writes, place, -⟩ := fit
      rcases Spot.replace_cases here sound with ⟨e, refused, same⟩ | ⟨x, ok, there, files⟩
      · exact ⟨.ended (.error (.io e)), by rw [refused]; rfl, .failed _ (.of_eq sound same)⟩
      · refine ⟨resume w.next w.rest, ?_, files ▸ .replaced there⟩
        rw [ok, Stage.program_resume writes place]
  | ended r => cases on

end Registry

end LanguageHost
