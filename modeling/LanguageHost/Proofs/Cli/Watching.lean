import LanguageHost.Cli.Commands
import LanguageHost.Proofs.Install.Replayed

/-! The command that installs looks at the operation from time to time and prints what is new to it. However
rarely it looks, the lines that it has printed are the beginning of the output; and since it looks once more
when the install has ended, they are all of it then. -/
namespace LanguageHost

namespace Operation

/-- The output of the one is the beginning of the output of the other. -/
def Grows (o o' : Operation) : Prop := o.output <+: o'.output

theorem Grows.refl (o : Operation) : o.Grows o := List.prefix_refl _

theorem Grows.trans {o o' o'' : Operation} (first : o.Grows o') (second : o'.Grows o'') : o.Grows o'' :=
  List.IsPrefix.trans first second

theorem grows_addLine (o : Operation) (line : String) : o.Grows (o.addLine line) :=
  ⟨[line], (o.output_addLine line).symm⟩

end Operation

namespace Cli
open Operation (Grows)

theorem freshLines_append {count : Nat} {o o' : Operation} (grows : o.Grows o')
    (printed : count ≤ o.output.length) :
    freshLines count o ++ freshLines o.output.length o' = freshLines count o' := by
  obtain ⟨more, longer⟩ := grows
  unfold freshLines
  rw [← longer, ← List.map_append, List.drop_left, ← List.drop_append_of_le_length printed]

/-- However many snapshots of an operation are seen before the last, all lines are printed once. -/
theorem watch_growing {count : Nat} {seen : List Operation} {last : Operation}
    (growing : (seen ++ [last]).Pairwise Grows) (printed : ∀ o ∈ seen ++ [last], count ≤ o.output.length) :
    watch count (seen ++ [last]) = freshLines count last := by
  induction seen generalizing count with
  | nil => exact List.append_nil _
  | cons o seen ih =>
      obtain ⟨later, growing⟩ := List.pairwise_cons.mp growing
      have rest := ih growing fun o' there => (later o' there).length_le
      rw [List.cons_append, watch, rest]
      exact freshLines_append (later last (by simp)) (printed o (by simp))

theorem watch_prefix (count : Nat) (seen more : List Operation) :
    watch count seen <+: watch count (seen ++ more) := by
  induction seen generalizing count with
  | nil => exact List.nil_prefix
  | cons o seen ih => exact (List.prefix_append_right_inj _).mpr (ih o.output.length)

end Cli

/-- An installer, and beside it the command that has begun an install and looks at the operation. -/
structure Watched where
  shop : Workshop
  /-- the snapshots that the command has seen -/
  seen : List Operation

namespace Watched

/-- The command has begun the first install of an installer. -/
def start (servers : Path) (configs : ServerConfigs) (platform : Platform) (files : Files)
    (e : RegistryEntry) : Watched :=
  ⟨(Workshop.opened servers configs platform files).begin e, []⟩

inductive Move where
  | shop (m : Workshop.Move)
  /-- the command looks at the operation that is shown, if there is one -/
  | look

def next (w : Watched) : Move → Watched
  | .shop m => { w with shop := w.shop.next m }
  | .look => { w with seen := w.seen ++ w.shop.operation.toList }

def run (w : Watched) (moves : List Move) : Watched := moves.foldl next w

/-- The lines of the output that the command has printed. -/
def printed (w : Watched) : List String := Cli.watch 0 w.seen

end Watched

/-- What a call has been begun with: its entry, and the installer and the files as it has found them. -/
def Install.Visit.beginning (v : Install.Visit) : RegistryEntry × Installer × Files :=
  (v.entry, v.origin, v.found)

namespace Workshop
open Install (Visit Stage)
open Operation (Grows)
variable {s s' : Workshop}

theorem Sound.eq_of_put (h : s.Sound) {j k : Nat} {v w w' : Visit} (there : s.calls k = some v)
    (found : (s.put k w).calls j = some w') : j = k ∧ w' = w := by
  by_cases same : j = k
  · subst same
    exact ⟨rfl, by simpa [Workshop.put] using found.symm⟩
  · have other : s.calls j = some w' := by simpa [Workshop.put, same] using found
    exact absurd (h.only there other) same

/-- What a step does to the operation that is shown, as long as the first call is under way. -/
inductive Shows (s s' : Workshop) (v v' : Visit) : Prop
  | opens {e : RegistryEntry} (placed : v.stage = .placed) (begun : v'.stage ≠ .placed)
      (operation : s'.operation = some (.start e.name)) : Shows s s' v v'
  | goes {f : Operation → Operation} (still : v'.stage = .placed → v.stage = .placed)
      (grows : ∀ o : Operation, o.Grows (f o)) (operation : s'.operation = s.operation.map f) : Shows s s' v v'

theorem Shows.of_same {v v' : Visit} (still : v'.stage = .placed → v.stage = .placed)
    (operation : s'.operation = s.operation) : s.Shows s' v v' :=
  .goes still Grows.refl (operation.trans Option.map_id_apply.symm)

theorem Steps.shows (made : s.Steps s') (sound : s.Sound) (begun : s.tickets ≠ 0) {v' : Visit}
    (there : s'.calls 0 = some v') : ∃ v, s.calls 0 = some v ∧ v'.beginning = v.beginning ∧
      s.Shows s' v v' := by
  cases made with
  | stay => exact ⟨v', there, rfl, .of_same id rfl⟩
  | cancel => exact ⟨v', there, rfl, .of_same id rfl⟩
  | @begin e =>
      cases taken : s.slot with
      | some k =>
          obtain ⟨w, held⟩ := (sound.sole k).mpr taken
          rw [sound.begin_of_held held] at there ⊢
          exact ⟨v', there, rfl, .of_same id rfl⟩
      | none =>
          rw [begin_of_free taken] at there
          have other : s.calls 0 = some v' := by simpa [Workshop.put, Ne.symm begun] using there
          cases (sound.unused taken 0).symm.trans other
  | @turn k v stage i held turns =>
      obtain ⟨rfl, rfl⟩ := sound.eq_of_put held there
      refine ⟨v, held, rfl, ?_⟩
      have moved := Stage.turn_ne_placed turns
      rcases Stage.shown_turn turns with ⟨placed, operation⟩ | ⟨_, f, same, operation⟩
      · exact .opens placed moved operation
      · exact .goes (fun placed => absurd placed moved) (fun o => ⟨[], by simp [same]⟩) operation
  | @ask k v h m held unasked files asks =>
      obtain ⟨rfl, rfl⟩ := sound.eq_of_put held there
      exact ⟨v, held, rfl, .of_same id rfl⟩
  | @send k v line rest held waits room =>
      obtain ⟨rfl, rfl⟩ := sound.eq_of_put held there
      exact ⟨v, held, rfl, .of_same id rfl⟩
  | @answer k v h m held asked asks unsent =>
      obtain ⟨rfl, rfl⟩ := sound.eq_of_put held there
      refine ⟨v, held, rfl, .of_same (fun placed => ?_) rfl⟩
      by_contra started
      exact Stage.resume_ne_placed started h placed
  | @take k v line rest held waits =>
      obtain ⟨rfl, rfl⟩ := sound.eq_of_put held there
      exact ⟨v, held, rfl, .goes id (fun o => o.grows_addLine line) rfl⟩
  | @leave k v r held =>
      have gone := (sound.release held s.files).unused rfl 0
      cases gone.symm.trans there
  | @abandon k v files held =>
      have gone := (sound.release held files).unused rfl 0
      cases gone.symm.trans there

theorem Steps.begun (made : s.Steps s') (begun : s.tickets ≠ 0) : s'.tickets ≠ 0 := by
  cases made with
  | @begin e =>
      unfold Workshop.begin
      dsimp only
      split <;> exact Nat.succ_ne_zero _
  | _ => exact begun

end Workshop

namespace Watched
open Install (Visit Stage)
open Operation (Grows)
open Program (Logged)
variable {w : Watched} {beginning : RegistryEntry × Installer × Files}

/-- What is known as long as the install goes on: what the command has seen, and what there is to see, are
snapshots of an operation that grows. -/
structure Sound (beginning : RegistryEntry × Installer × Files) (w : Watched) : Prop where
  tidy : w.shop.Tidy
  begun : w.shop.tickets ≠ 0
  same : ∀ v, w.shop.calls 0 = some v → v.beginning = beginning
  unseen : ∀ v, w.shop.calls 0 = some v → v.stage = .placed → w.shop.operation = none ∧ w.seen = []
  growing : w.shop.IsUnderway 0 → (w.seen ++ w.shop.operation.toList).Pairwise Grows

theorem sound_start (servers : Path) (configs : ServerConfigs) (platform : Platform) (files : Files)
    (e : RegistryEntry) : Sound (e, .ofConfigs servers configs platform, files)
      (start servers configs platform files e) where
  tidy := (Workshop.tidy_opened servers configs platform files).begin e
  begun := Nat.succ_ne_zero 0
  same := by
    rintro _ ⟨⟩
    rfl
  unseen _ _ _ := ⟨rfl, rfl⟩
  growing _ := .nil

theorem Sound.look (h : Sound beginning w) : Sound beginning (w.next .look) where
  tidy := h.tidy
  begun := h.begun
  same := h.same
  unseen v there placed := by
    obtain ⟨operation, seen⟩ := h.unseen v there placed
    refine ⟨operation, ?_⟩
    change w.seen ++ w.shop.operation.toList = []
    rw [operation, seen]
    rfl
  growing underway := by
    have growing := h.growing underway
    change ((w.seen ++ w.shop.operation.toList) ++ w.shop.operation.toList).Pairwise Grows
    cases shown : w.shop.operation with
    | none => simpa [shown] using growing
    | some o =>
        rw [shown] at growing
        refine List.pairwise_append.mpr ⟨growing, List.pairwise_singleton _ _, ?_⟩
        rintro before there _ (_ | ⟨_, ⟨⟩⟩)
        rcases List.mem_append.mp there with seen | same
        · exact (List.pairwise_append.mp growing).2.2 before seen o (by simp)
        · obtain rfl : before = o := by simpa using same
          exact .refl _

theorem Sound.shop (h : Sound beginning w) (m : Workshop.Move) :
    Sound beginning (w.next (.shop m)) := by
  have made := w.shop.steps_next m
  have shows {v' : Visit} (there : (w.shop.next m).calls 0 = some v') :=
    made.shows h.tidy.sound h.begun there
  constructor
  · exact h.tidy.steps made
  · exact made.begun h.begun
  · intro v' there
    obtain ⟨v, before, same, -⟩ := shows there
    exact same.trans (h.same v before)
  · intro v' there placed
    obtain ⟨v, before, -, ⟨-, moved, -⟩ | ⟨still, -, operation⟩⟩ := shows there
    · exact absurd placed moved
    · obtain ⟨nothing, seen⟩ := h.unseen v before (still placed)
      refine ⟨?_, seen⟩
      change (w.shop.next m).operation = none
      rw [operation, nothing]
      rfl
  · rintro ⟨v', there⟩
    change (w.seen ++ (w.shop.next m).operation.toList).Pairwise Grows
    obtain ⟨v, before, -, ⟨placed, -, operation⟩ | @⟨f, -, grows, operation⟩⟩ := shows there
    · rw [operation, (h.unseen v before placed).2]
      exact List.pairwise_singleton _ _
    · have growing := h.growing ⟨v, before⟩
      rw [operation]
      cases shown : w.shop.operation with
      | none => simpa [shown] using growing
      | some o =>
          rw [shown] at growing
          obtain ⟨seen, -, until_now⟩ := List.pairwise_append.mp growing
          refine List.pairwise_append.mpr ⟨seen, List.pairwise_singleton _ _, ?_⟩
          rintro o' there _ (_ | ⟨_, ⟨⟩⟩)
          exact (until_now o' there o (by simp)).trans (grows o)

theorem Sound.run (h : Sound beginning w) (moves : List Move) : Sound beginning (w.run moves) := by
  induction moves generalizing w with
  | nil => exact h
  | cons m moves ih =>
      cases m with
      | shop m => exact ih (h.shop m)
      | look => exact ih h.look

/-- After a look everything is printed. -/
theorem Sound.printed_look (h : Sound beginning w) (underway : w.shop.IsUnderway 0) {o : Operation}
    (shown : w.shop.operation = some o) :
    (w.next .look).printed = o.output.map fun line => "  " ++ line := by
  have growing := h.growing underway
  change Cli.watch 0 (w.seen ++ w.shop.operation.toList) = _
  rw [shown] at growing ⊢
  exact Cli.watch_growing growing fun _ _ => Nat.zero_le _

/-- What has been printed at any time is the beginning of what a look would have printed then. -/
theorem printed_prefix (w : Watched) : w.printed <+: (w.next .look).printed :=
  Cli.watch_prefix 0 w.seen w.shop.operation.toList

section leaving
variable {v : Visit} {r : Except Error (ServerBinary × ServerConfigs)} {o : Operation}
  (there : w.shop.calls 0 = some v) (leaving : v.stage = .leaving r o)
include there leaving

theorem next_leave : w.shop.next (.leave 0) = (w.shop.release 0).answers 0 (r.map Prod.fst) := by
  simp only [Workshop.next, Workshop.step, there, Workshop.left, leaving]

/-- Leaving changes nothing of what is shown, so that the last look is as good as one before. -/
theorem Sound.printed_last (h : Sound beginning w) {shown : Operation}
    (operation : w.shop.operation = some shown) :
    ((w.next (.shop (.leave 0))).next .look).printed = shown.output.map fun line => "  " ++ line := by
  rw [← h.printed_look ⟨v, there⟩ operation]
  change Cli.watch 0 (w.seen ++ (w.shop.next (.leave 0)).operation.toList) = _
  rw [next_leave there leaving]
  rfl

/-- The call that is leaving has run the install as a whole, whose output at its end is the reported lines. -/
theorem Sound.installed {e : RegistryEntry} {i : Installer} {files : Files} (h : Sound (e, i, files) w) :
    ∃ i' last, Logged v.log files (i.install e) (r.map Prod.fst, i') w.shop.files ∧
      i'.operation = some last ∧ last.output = reported v.log := by
  have follows := h.tidy.follows 0 v there
  have installed := follows.installed leaving
  obtain ⟨rfl, rfl, rfl⟩ : v.entry = e ∧ v.origin = i ∧ v.found = files := by
    simpa [Visit.beginning] using h.same v there
  have ran := (Install.reports_run v.origin.servers v.origin.configs v.entry v.origin.platform).output
    (follows.ran leaving)
  refine ⟨_, o.finish r, installed, rfl, ?_⟩
  rw [Operation.output_finish, ran]
  rfl

end leaving

/-- However an install and the cancellations take their steps, and however few of the snapshots of its
operation the command looks at: what the command has printed is at any time the beginning of the output that
is shown. When the install has returned, the command looks once more; then it has printed all lines of the
output, each once and in order, and these are the lines that the calls of the install have reported. So it
has printed what somebody prints who looks only at the end of such a run. -/
theorem lines_are_printed_once {servers : Path} {configs : ServerConfigs} {platform : Platform}
    {files : Files} {e : RegistryEntry} {moves : List Move} {w : Watched} {v : Visit}
    (reached : (start servers configs platform files e).run moves = w)
    (there : w.shop.calls 0 = some v) :
    (∀ shown, w.shop.operation = some shown →
      w.printed <+: shown.output.map fun line => "  " ++ line) ∧
    ∀ r o, v.stage = .leaving r o → ∃ ended shown,
      (w.next (.shop (.leave 0))).next .look = ended ∧
      ended.shop.returned 0 = some (r.map Prod.fst) ∧ ended.shop.operation = some shown ∧
      shown.output = reported v.log ∧ ended.printed = shown.output.map (fun line => "  " ++ line) ∧
      ∃ i, Logged v.log files ((Installer.ofConfigs servers configs platform).install e)
          (r.map Prod.fst, i) w.shop.files ∧
        ended.printed = Cli.watch 0 i.operation.toList := by
  have sound := (sound_start servers configs platform files e).run moves
  rw [reached] at sound
  refine ⟨fun shown operation => ?_, fun r o leaving => ?_⟩
  · rw [← sound.printed_look ⟨v, there⟩ operation]
    exact w.printed_prefix
  · obtain ⟨shown, operation, output⟩ := sound.tidy.shown_of_leaving there leaving
    have printed := sound.printed_last there leaving operation
    obtain ⟨i, last, installed, final, own⟩ := sound.installed there leaving
    refine ⟨_, shown, rfl, ?_, ?_, output, printed, i, installed, ?_⟩
    · change (w.shop.next (.leave 0)).returned 0 = _
      rw [next_leave there leaving]
      simp [Workshop.answers]
    · change (w.shop.next (.leave 0)).operation = _
      rw [next_leave there leaving]
      exact operation
    · rw [printed, output, ← own, final]
      exact (List.append_nil _).symm

/-- The command looks after every move. -/
def attentive (moves : List Workshop.Move) : List Move := moves.flatMap fun m => [.shop m, .look]

theorem shop_attentive (w : Watched) (moves : List Workshop.Move) :
    (w.run (attentive moves)).shop = w.shop.run moves := by
  induction moves generalizing w with
  | nil => rfl
  | cons m moves ih => exact ih ((w.next (.shop m)).next .look)

/-- The command has begun to install a release. -/
def Sample.begun : Watched :=
  let i := Install.Sample.installer
  start i.servers i.configs i.platform Install.Sample.files Install.Sample.release

theorem download_is_printed : ∃ moves v r o,
    (Sample.begun.run moves).shop.calls 0 = some v ∧ v.stage = .leaving r o ∧
    (((Sample.begun.run moves).next (.shop (.leave 0))).next .look).printed =
      ["  Downloading " ++ Install.Sample.link] := by
  obtain ⟨i', made⟩ := Install.Sample.logged_moments
  obtain ⟨moves, v, r, o, there, leaving, -, logs, -⟩ :=
    Workshop.replayed_begun made Install.Sample.lasting_moments
  have watched : (Sample.begun.run (attentive moves)).shop.calls 0 = some v := by
    rw [shop_attentive]
    exact there
  obtain ⟨-, returns⟩ := lines_are_printed_once (w := Sample.begun.run (attentive moves)) rfl watched
  obtain ⟨ended, shown, looked, -, -, output, printed, -⟩ := returns r o leaving
  refine ⟨attentive moves, v, r, o, watched, leaving, ?_⟩
  rw [looked, printed, output, logs]
  rfl

end Watched

end LanguageHost
