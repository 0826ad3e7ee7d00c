import LanguageHost.Proofs.Install.Channel

/-! The snapshots of its operation that a call publishes. Each of them comes before those that follow it:
the phase and the progress do not go back, the output grows at its end, and just the last is finished. -/
namespace LanguageHost

namespace Phase

/-- The place of a phase in the course of an install, which has three ends. -/
def rank : Phase → Nat
  | .resolving => 0
  | .preparing => 1
  | .installing => 2
  | .verifying => 3
  | .completed | .failed | .cancelled => 4

/-- The highest progress in a phase. -/
def cap : Phase → Nat
  | .resolving => 0
  | .preparing => 10
  | .installing => 90
  | .verifying | .failed | .cancelled => 95
  | .completed => 100

theorem rank_le (phase : Phase) : phase.rank ≤ 4 := by cases phase <;> decide

theorem cap_le {phase : Phase} (unfinished : phase.isFinished = false) : phase.cap ≤ 95 := by
  revert unfinished
  cases phase <;> decide

theorem cap_mono {before after : Phase} (order : before.rank ≤ after.rank)
    (unfinished : before.isFinished = false) : before.cap ≤ after.cap := by
  revert order unfinished
  cases before <;> cases after <;> decide

end Phase

namespace Operation

/-- A snapshot that goes on to another. -/
structure Precedes (o o' : Operation) : Prop where
  package : o'.package = o.package
  unfinished : o.phase.isFinished = false
  phase : o.phase.rank ≤ o'.phase.rank
  progress : o.progress ≤ o'.progress
  output : o.output <+: o'.output

/-- Progress and error are those of the phase. -/
structure Proper (o : Operation) : Prop where
  bound : o.progress ≤ o.phase.cap
  full : o.progress = 100 ↔ o.phase = .completed
  error : o.error.isSome = true ↔ o.phase = .failed

/-- The end of an install that has given a result. -/
structure EndsAs (o : Operation) (r : Except Error α) : Prop where
  finished : o.phase.isFinished = true
  completed : o.phase = .completed ↔ r.isOk = true
  cancelled : o.phase = .cancelled ↔ r = .error .cancelled
  error : ∀ e, r = .error e → e ≠ .cancelled → o.error = some e.message

theorem EndsAs.map {o : Operation} {r : Except Error α} (ends : o.EndsAs r) (f : α → β) :
    o.EndsAs (r.map f) := by
  cases r with
  | ok a =>
      refine ⟨ends.finished, ends.completed, ⟨fun stopped => ?_, nofun⟩, fun _ => nofun⟩
      cases ends.cancelled.mp stopped
  | error e =>
      refine ⟨ends.finished, ends.completed, ⟨fun stopped => ?_, fun same => ?_⟩, fun e' same => ?_⟩
      · rw [Except.error.inj (ends.cancelled.mp stopped)]
        rfl
      · exact ends.cancelled.mpr (by rw [Except.error.inj same])
      · exact ends.error e' (by rw [Except.error.inj same])

theorem Precedes.trans {o o' o'' : Operation} (first : o.Precedes o') (second : o'.Precedes o'') :
    o.Precedes o'' where
  package := second.package.trans first.package
  unfinished := first.unfinished
  phase := first.phase.trans second.phase
  progress := first.progress.trans second.progress
  output := first.output.trans second.output

theorem proper_start (package : String) : (start package).Proper :=
  ⟨Nat.le_refl _, ⟨nofun, nofun⟩, ⟨nofun, nofun⟩⟩

section unfinished
variable {o : Operation} (proper : o.Proper) (unfinished : o.phase.isFinished = false)
include proper unfinished

theorem Proper.progress_le : o.progress ≤ 95 := proper.bound.trans (Phase.cap_le unfinished)

theorem Proper.error_eq : o.error = none := by
  refine Option.not_isSome_iff_eq_none.mp fun there => ?_
  rw [proper.error.mp there] at unfinished
  cases unfinished

/-- A line moves the progress on, but never out of the bound of the phase. -/
theorem Proper.addLine (line : String) : (o.addLine line).Proper ∧ o.Precedes (o.addLine line) := by
  have grows : o.output <+: o.output ++ [line] := List.prefix_append _ _
  have low := proper.progress_le unfinished
  have moves : o.progress ≤ (o.addLine line).progress ∧ (o.addLine line).progress ≤ o.phase.cap ∧
      (o.addLine line).progress ≤ 95 := by
    have bound := proper.bound
    by_cases installing : o.phase = .installing
    · have moved : (o.addLine line).progress = min (o.progress + 1) 90 := if_pos installing
      rw [installing] at bound ⊢
      change _ ≤ 90 at bound
      change _ ∧ _ ≤ 90 ∧ _
      omega
    · have still : (o.addLine line).progress = o.progress := if_neg installing
      omega
  obtain ⟨forward, bound, below⟩ := moves
  refine ⟨⟨bound, ⟨fun all => ?_, fun ended => ?_⟩, proper.error⟩, rfl, unfinished, Nat.le_refl _, forward,
    grows⟩
  · omega
  · have full := proper.full.mpr ended
    omega

/-- A later phase is entered. -/
theorem Proper.enter {phase : Phase} {progress : Nat} (later : o.phase.rank ≤ phase.rank)
    (goes_on : phase.isFinished = false) (bound : progress ≤ phase.cap) :
    (o.enter phase progress).Proper ∧ o.Precedes (o.enter phase progress) := by
  have cap : max o.progress progress ≤ phase.cap :=
    Nat.max_le.mpr ⟨proper.bound.trans (Phase.cap_mono later unfinished), bound⟩
  have low := cap.trans (Phase.cap_le goes_on)
  refine ⟨⟨cap, ⟨fun all => ?_, ?_⟩, ⟨fun there => ?_, ?_⟩⟩, rfl, unfinished, later, Nat.le_max_left _ _,
    List.prefix_refl _⟩
  · exact absurd low (by rw [show max o.progress progress = 100 from all]; decide)
  · rintro rfl
    cases goes_on
  · have none : (o.enter phase progress).error = none := proper.error_eq unfinished
    rw [none] at there
    cases there
  · rintro rfl
    cases goes_on

/-- The end of an operation is the one that the result asks for. -/
theorem Proper.finish (r : Except Error α) :
    (o.finish r).Proper ∧ o.Precedes (o.finish r) ∧ (o.finish r).EndsAs r := by
  have low := proper.progress_le unfinished
  have faultless : ¬ o.error.isSome = true := by
    rw [proper.error_eq unfinished]
    exact nofun
  have last := o.phase.rank_le
  cases r with
  | ok a =>
      refine ⟨⟨Nat.le_refl _, ⟨fun _ => rfl, fun _ => rfl⟩, ⟨fun there => absurd there faultless, nofun⟩⟩,
        ⟨rfl, unfinished, last, low.trans (show 95 ≤ 100 by decide), List.prefix_refl _⟩, ?_⟩
      exact ⟨rfl, ⟨fun _ => rfl, fun _ => rfl⟩, ⟨nofun, nofun⟩, fun _ => nofun⟩
  | error e =>
      have part_way : o.progress ≠ 100 := by omega
      cases e with
      | cancelled =>
          refine ⟨⟨low, ⟨fun all => absurd all part_way, nofun⟩,
            ⟨fun there => absurd there faultless, nofun⟩⟩,
            ⟨rfl, unfinished, last, Nat.le_refl _, List.prefix_refl _⟩, ?_⟩
          refine ⟨rfl, ⟨nofun, nofun⟩, ⟨fun _ => rfl, fun _ => rfl⟩, fun e same other => ?_⟩
          exact absurd (Except.error.inj same).symm other
      | _ =>
          refine ⟨⟨low, ⟨fun all => absurd all part_way, nofun⟩, ⟨fun _ => rfl, fun _ => rfl⟩⟩,
            ⟨rfl, unfinished, last, Nat.le_refl _, List.prefix_refl _⟩, ?_⟩
          refine ⟨rfl, ⟨nofun, nofun⟩, ⟨nofun, nofun⟩, fun e same _ => ?_⟩
          cases same
          rfl

end unfinished

end Operation

namespace Install
open Operation (Proper Precedes EndsAs)

namespace Part

def phase : Part → Phase
  | .preparing => .preparing
  | .installing => .installing
  | .verifying => .verifying

theorem unfinished (part : Part) : part.phase.isFinished = false := by cases part <;> rfl

theorem phase_enter (part : Part) (o : Operation) : (part.enter o).phase = part.phase := by
  cases part <;> rfl

theorem proper_enter {o : Operation} (part : Part) (proper : o.Proper)
    (unfinished : o.phase.isFinished = false) (later : o.phase.rank ≤ part.phase.rank) :
    (part.enter o).Proper ∧ o.Precedes (part.enter o) := by
  cases part with
  | preparing => exact proper.enter unfinished later rfl (by decide)
  | installing => exact proper.enter unfinished later rfl (by decide)
  | verifying => exact proper.enter unfinished later rfl (by decide)

end Part

namespace Stage

/-- A turn of the stage publishes a snapshot. -/
def announces : Stage → Bool
  | .placed | .closing .. => true
  | .clearing _ (.done (.ok _, _)) => true
  | .working _ _ .preparing (.done (.ok _, _)) => true
  | .working _ _ .installing (.done (.ok _, _)) => true
  | _ => false

/-- An operation can be shown at a stage. -/
def Fits : Stage → Operation → Prop
  | .placed, _ => True
  | .clearing .., o => o.phase = .resolving
  | .working _ _ part _, o => o.phase = part.phase
  | .draining .., o | .settling _, o | .closing .., o => o.phase.isFinished = false
  | .leaving r _, o => o.EndsAs r

theorem Fits.unfinished {st : Stage} {o : Operation} (fits : st.Fits o) (listens : st.listens = true) :
    o.phase.isFinished = false := by
  cases st with
  | working p had part rest =>
      change o.phase = part.phase at fits
      rw [fits]
      exact part.unfinished
  | draining => exact fits
  | _ => cases listens

theorem Fits.addLine {st : Stage} {o : Operation} (fits : st.Fits o) (listens : st.listens = true)
    (line : String) : st.Fits (o.addLine line) := by
  cases st with
  | working => exact fits
  | draining => exact fits
  | _ => cases listens

theorem Fits.resume {st : Stage} {o : Operation} (fits : st.Fits o) (h : Host) :
    (st.resume h).Fits o := by
  cases st <;> exact fits

/-- What a turn shows, where something was shown before: the next snapshot, or what was shown. -/
theorem Fits.turn {i : Installer} {e : RegistryEntry} {drained : Bool} {st : Stage} {next : Stage × Installer}
    {o : Operation} (turns : st.turn i e drained = some next) (begun : st ≠ .placed)
    (shown : i.operation = some o) (proper : o.Proper) (fits : st.Fits o) :
    ∃ o', next.2.operation = some o' ∧ next.1.Fits o' ∧
      if st.announces then o'.Proper ∧ o.Precedes o' else o' = o := by
  have enters : ∀ part : Part, o.phase.isFinished = false → o.phase.rank ≤ part.phase.rank →
      ∃ o', (i.revise part.enter).operation = some o' ∧ o'.phase = part.phase ∧
        o'.Proper ∧ o.Precedes o' := by
    intro part unfinished later
    refine ⟨part.enter o, ?_, part.phase_enter o, part.proper_enter proper unfinished later⟩
    rw [Installer.revise, shown]
    rfl
  cases turn_cases turns with
  | refuse => exact absurd rfl begun
  | clear => exact absurd rfl begun
  | stuck =>
      refine ⟨o, shown, ?_, rfl⟩
      change o.phase.isFinished = false
      rw [show o.phase = .resolving from fits]
      rfl
  | prepare =>
      have resolving : o.phase = .resolving := fits
      exact enters .preparing (by rw [resolving]; rfl) (by rw [resolving]; decide)
  | @fail p had part error o' =>
      refine ⟨o, shown, ?_, ?_⟩
      · change o.phase.isFinished = false
        rw [show o.phase = part.phase from fits]
        exact part.unfinished
      · cases part <;> rfl
  | install =>
      have preparing : o.phase = .preparing := fits
      exact enters .installing (by rw [preparing]; rfl) (by rw [preparing]; decide)
  | verify =>
      have installing : o.phase = .installing := fits
      exact enters .verifying (by rw [installing]; rfl) (by rw [installing]; decide)
  | finish =>
      refine ⟨o, shown, ?_, rfl⟩
      change o.phase.isFinished = false
      rw [show o.phase = .verifying from fits]
      rfl
  | settle => exact ⟨o, shown, fits, rfl⟩
  | @close r o' =>
      refine ⟨o, ?_, fits, rfl⟩
      cases r <;> exact shown
  | @leave r o' =>
      obtain ⟨ended, order, ends⟩ := proper.finish fits r
      refine ⟨o.finish r, ?_, ends, ended, order⟩
      rw [Installer.revise, shown]
      rfl

theorem announces_of_stuck {i : Installer} {e : RegistryEntry} {drained : Bool} {st : Stage}
    (stuck : st.turn i e drained = none) : st.announces = false := by
  cases st with
  | placed =>
      simp only [turn] at stuck
      split at stuck <;> cases stuck
  | clearing p rest =>
      obtain ⟨_ | _, o⟩ | _ := rest
      · rfl
      · cases stuck
      · rfl
  | working p had part rest =>
      obtain ⟨_ | _, o⟩ | _ := rest
      · cases stuck
      · cases part <;> cases stuck
      · cases part <;> rfl
  | closing => cases stuck
  | _ => rfl

/-- The first snapshot. -/
theorem turn_placed {i : Installer} {e : RegistryEntry} {drained : Bool} {next : Stage × Installer}
    (turns : Stage.placed.turn i e drained = some next) :
    next.2.operation = some (.start e.name) ∧ next.1.Fits (.start e.name) := by
  cases turn_cases turns with
  | refuse => exact ⟨rfl, rfl⟩
  | clear => exact ⟨rfl, rfl⟩

end Stage

end Install

namespace Workshop
open Install (Visit Stage)
open Operation (Proper Precedes EndsAs)

/-- The move makes a call publish a snapshot. -/
def publishes (s : Workshop) (k : Nat) (m : Move) : Bool :=
  match s.calls k, m with
  | some v, .turn j => j == k && v.stage.announces
  | some v, .take j => j == k && v.stage.listens && !v.channel.isEmpty
  | _, _ => false

/-- The snapshots of the operation of a call that moves publish, one after the other. -/
def snapshots (s : Workshop) (k : Nat) : List Move → List Operation
  | [] => []
  | m :: moves =>
    (if s.publishes k m then (s.next m).operation.toList else []) ++ (s.next m).snapshots k moves

/-- What is known of the snapshots that a call has published until a state. -/
structure Published (k : Nat) (seen : List Operation) (s : Workshop) : Prop where
  ordered : seen.Pairwise Precedes
  proper : ∀ o ∈ seen, o.Proper
  first : ∀ o, seen.head? = some o → o = .start o.package
  unseen : ∀ v, s.calls k = some v → v.stage = .placed → seen = []
  shown : ∀ v, s.calls k = some v → v.stage ≠ .placed → ∃ o, seen.getLast? = some o ∧
    s.operation = some o ∧ v.stage.Fits o
  unreturned : s.IsUnderway k → s.returned k = none
  returned : ∀ r, s.returned k = some r → (seen = [] ∧ ∃ running, r = .error (.installing running)) ∨
    ∃ o, seen.getLast? = some o ∧ o.EndsAs r
  fresh : s.tickets ≤ k → seen = []

theorem step_of_underway {s : Workshop} {k : Nat} {v : Visit} (there : s.calls k = some v)
    (f : Workshop → Nat → Visit → Workshop) : s.step k f = f s k v := by
  simp only [step, there]

/-- No other call than the one that is under way makes a step. -/
theorem Sound.step_of_other {s : Workshop} (sound : s.Sound) {j k : Nat} {v : Visit}
    (there : s.calls k = some v) (other : j ≠ k) (f : Workshop → Nat → Visit → Workshop) : s.step j f = s := by
  unfold step
  split
  · rfl
  · next w elsewhere => exact absurd (sound.only there elsewhere) other

namespace Published
variable {k : Nat} {seen : List Operation} {s s' : Workshop} {v v' : Visit}

/-- A call that has published nothing has not gone further than to its place. -/
theorem nothing (placed : ∀ v, s.calls k = some v → v.stage = .placed)
    (unreturned : s.IsUnderway k → s.returned k = none)
    (returned : ∀ r, s.returned k = some r → ∃ running, r = .error (.installing running)) :
    Published k [] s where
  ordered := .nil
  proper _ := nofun
  first _ := nofun
  unseen _ _ _ := rfl
  shown v there begun := absurd (placed v there) begun
  unreturned := unreturned
  returned r has := .inl ⟨rfl, returned r has⟩
  fresh _ := rfl

theorem opened (servers : Path) (configs : ServerConfigs) (platform : Platform) (files : Files) (k : Nat) :
    Published k [] (opened servers configs platform files) :=
  .nothing (fun _ => nofun) (fun _ => rfl) fun _ => nofun

/-- The call is not under way, and nothing else has happened to it. -/
theorem idle (h : Published k seen s) (gone : s'.calls k = none) (returned : s'.returned k = s.returned k)
    (tickets : s.tickets ≤ s'.tickets) : Published k seen s' where
  ordered := h.ordered
  proper := h.proper
  first := h.first
  unseen _ there := nomatch gone.symm.trans there
  shown _ there := nomatch gone.symm.trans there
  unreturned := by
    rintro ⟨v, there⟩
    cases gone.symm.trans there
  returned r there := h.returned r (returned.symm.trans there)
  fresh late := h.fresh (tickets.trans late)

/-- The call goes on and publishes nothing. -/
theorem keep (h : Published k seen s) (there : s.calls k = some v) (now : s'.calls k = some v')
    (placed : v'.stage = .placed ↔ v.stage = .placed)
    (fits : ∀ o, s.operation = some o → v.stage.Fits o → v'.stage.Fits o)
    (operation : s'.operation = s.operation) (returned : s'.returned k = s.returned k)
    (tickets : s.tickets ≤ s'.tickets) : Published k seen s' where
  ordered := h.ordered
  proper := h.proper
  first := h.first
  unseen w same := by
    obtain rfl : v' = w := Option.some.inj (now.symm.trans same)
    exact fun still => h.unseen v there (placed.mp still)
  shown w same := by
    obtain rfl : v' = w := Option.some.inj (now.symm.trans same)
    intro begun
    obtain ⟨o, last, shown, fitted⟩ := h.shown v there fun still => begun (placed.mpr still)
    exact ⟨o, last, operation.trans shown, fits o shown fitted⟩
  unreturned _ := returned.trans (h.unreturned ⟨v, there⟩)
  returned r has := h.returned r (returned.symm.trans has)
  fresh late := h.fresh (tickets.trans late)

/-- The call publishes a snapshot, the first or one that the last before it goes on to. -/
theorem publish (h : Published k seen s) (there : s.calls k = some v) (now : s'.calls k = some v')
    (begun : v'.stage ≠ .placed) {o : Operation} (shown : s'.operation = some o) (fits : v'.stage.Fits o)
    (proper : o.Proper)
    (next : seen = [] ∧ o = .start o.package ∨ ∃ before, seen.getLast? = some before ∧ before.Precedes o)
    (returned : s'.returned k = s.returned k) (held : k < s'.tickets) :
    Published k (seen ++ [o]) s' where
  ordered := by
    refine List.pairwise_append.mpr ⟨h.ordered, List.pairwise_singleton _ _, ?_⟩
    rintro earlier listed _ (_ | ⟨_, ⟨⟩⟩)
    rcases next with ⟨rfl, -⟩ | ⟨before, last, precedes⟩
    · cases listed
    · obtain ⟨front, rfl⟩ := List.getLast?_eq_some_iff.mp last
      rcases List.mem_append.mp listed with front | same
      · exact ((List.pairwise_append.mp h.ordered).2.2 earlier front before (by simp)).trans precedes
      · obtain rfl : earlier = before := by simpa using same
        exact precedes
  proper o' listed := by
    rcases List.mem_append.mp listed with before | same
    · exact h.proper o' before
    · obtain rfl : o' = o := by simpa using same
      exact proper
  first o' head := by
    rcases next with ⟨rfl, first⟩ | ⟨before, last, -⟩
    · obtain rfl : o = o' := by simpa using head
      exact first
    · have some : seen ≠ [] := by
        rintro rfl
        cases last
      rw [List.head?_append_of_ne_nil _ some] at head
      exact h.first o' head
  unseen w same placed := by
    obtain rfl : v' = w := Option.some.inj (now.symm.trans same)
    exact absurd placed begun
  shown w same _ := by
    obtain rfl : v' = w := Option.some.inj (now.symm.trans same)
    exact ⟨o, List.getLast?_concat, shown, fits⟩
  unreturned _ := returned.trans (h.unreturned ⟨v, there⟩)
  returned r has := nomatch (returned.trans (h.unreturned ⟨v, there⟩)).symm.trans has
  fresh late := absurd held (Nat.not_lt.mpr late)

/-- Whatever happens while the call is not under way. -/
theorem steps_of_idle (h : Published k seen s) (sound : s.Sound) (gone : s.calls k = none)
    (made : s.Steps s') : Published k seen s' := by
  have other : ∀ {j v}, s.calls j = some v → k ≠ j := by
    rintro j v there rfl
    cases gone.symm.trans there
  have still : ∀ {j v v'}, s.calls j = some v → Function.update s.calls j (some v') k = none := by
    intro j v v' there
    rw [Function.update_of_ne (other there)]
    exact gone
  cases made with
  | stay => exact h
  | cancel => exact h.idle gone rfl (Nat.le_refl _)
  | @begin e =>
      cases taken : s.slot with
      | none =>
          rw [begin_of_free taken]
          by_cases new : k = s.tickets
          · subst new
            obtain rfl := h.fresh (Nat.le_refl _)
            have unreturned : s.returned s.tickets = none := (sound.fresh _ (Nat.le_refl _)).2.1
            refine .nothing (fun v there => ?_) (fun _ => unreturned) fun r has => ?_
            · obtain rfl := Option.some.inj ((calls_put _ _ _).symm.trans there)
              rfl
            · cases unreturned.symm.trans has
          · exact h.idle ((Function.update_of_ne new ..).trans gone) rfl (Nat.le_succ _)
      | some j =>
          obtain ⟨v, held⟩ := (sound.sole j).mpr taken
          rw [sound.begin_of_held held]
          by_cases new : k = s.tickets
          · subst new
            obtain rfl := h.fresh (Nat.le_refl _)
            refine .nothing (fun v there => ?_) ?_ fun r has => ?_
            · cases gone.symm.trans there
            · rintro ⟨v, there⟩
              cases gone.symm.trans there
            · change Function.update s.returned s.tickets _ s.tickets = some r at has
              rw [Function.update_self] at has
              exact ⟨_, (Option.some.inj has).symm⟩
          · exact h.idle gone (Function.update_of_ne new ..) (Nat.le_succ _)
  | leave there =>
      exact h.idle ((sound.release there s.files).unused rfl k) (Function.update_of_ne (other there) ..)
        (Nat.le_refl _)
  | abandon there => exact h.idle ((sound.release there _).unused rfl k) rfl (Nat.le_refl _)
  | turn there => exact h.idle (still there) rfl (Nat.le_refl _)
  | ask there => exact h.idle (still there) rfl (Nat.le_refl _)
  | send there => exact h.idle (still there) rfl (Nat.le_refl _)
  | answer there => exact h.idle (still there) rfl (Nat.le_refl _)
  | take there => exact h.idle (still there) rfl (Nat.le_refl _)

section underway
variable (h : Published k seen s) (sound : s.Sound) (there : s.calls k = some v)
include h sound there

theorem turned : Published k
    (seen ++ if v.stage.announces then (s.turned k v).operation.toList else []) (s.turned k v) := by
  have held := sound.lt_tickets there
  cases turns : v.stage.turn s.installer v.entry v.channel.isEmpty with
  | none =>
      have same : s.turned k v = s := by simp only [Workshop.turned, turns]
      rw [Stage.announces_of_stuck turns, same]
      simpa using h
  | some next =>
      obtain ⟨stage, i⟩ := next
      have goes : s.turned k v = (s.adopt i).put k { v with stage := stage } := by
        simp only [Workshop.turned, turns]
      have operation : (s.turned k v).operation = i.operation := by rw [goes]; rfl
      have now : ((s.adopt i).put k { v with stage := stage }).calls k = some { v with stage := stage } :=
        calls_put ..
      have begun : stage ≠ .placed := Stage.turn_ne_placed turns
      rw [operation, goes]
      by_cases placed : v.stage = .placed
      · obtain rfl := h.unseen v there placed
        rw [placed] at turns ⊢
        obtain ⟨shown, fits⟩ := Stage.turn_placed turns
        change Published k ([] ++ i.operation.toList) _
        rw [shown]
        exact h.publish there now begun shown fits (Operation.proper_start _) (.inl ⟨rfl, rfl⟩) rfl held
      · obtain ⟨o, last, shown, fits⟩ := h.shown v there placed
        have proper := h.proper o (List.mem_of_getLast? last)
        obtain ⟨o', shown', fits', follows⟩ := fits.turn turns placed shown proper
        cases announces : v.stage.announces with
        | true =>
            rw [announces] at follows
            change Published k (seen ++ i.operation.toList) _
            rw [shown']
            exact h.publish there now begun shown' fits' follows.1 (.inr ⟨o, last, follows.2⟩) rfl held
        | false =>
            rw [announces] at follows
            obtain rfl : o' = o := follows
            change Published k (seen ++ []) _
            rw [List.append_nil]
            refine h.keep there now ⟨fun still => absurd still begun, fun still => absurd still placed⟩
              (fun o same _ => ?_) (shown'.trans shown.symm) rfl (Nat.le_refl _)
            obtain rfl := Option.some.inj (shown.symm.trans same)
            exact fits'

omit sound in
theorem asked (host : Host) : Published k seen (s.asked k v host) := by
  unfold Workshop.asked
  dsimp only
  split
  · exact h.keep there (calls_put ..) Iff.rfl (fun _ _ => id) rfl rfl (Nat.le_refl _)
  · exact h

omit sound in
theorem sent : Published k seen (s.sent k v) := by
  unfold Workshop.sent
  split
  · exact h
  · split
    · exact h.keep there (calls_put ..) Iff.rfl (fun _ _ => id) rfl rfl (Nat.le_refl _)
    · exact h

omit sound in
theorem answered : Published k seen (s.answered k v) := by
  unfold Workshop.answered
  split
  · split
    · next host m asked asks ready =>
        refine h.keep there (calls_put ..) ⟨fun still => ?_, fun placed => ?_⟩ (fun _ _ fits => fits.resume host)
          rfl rfl (Nat.le_refl _)
        · by_contra begun
          exact Stage.resume_ne_placed begun host still
        · change v.stage.resume host = .placed
          rw [placed]
          rfl
    · exact h
  · exact h

theorem taken : Published k
    (seen ++ if v.stage.listens && !v.channel.isEmpty then (s.taken k v).operation.toList else [])
    (s.taken k v) := by
  have nothing : s.taken k v = s → (v.stage.listens && !v.channel.isEmpty) = false → Published k
      (seen ++ if v.stage.listens && !v.channel.isEmpty then (s.taken k v).operation.toList else [])
      (s.taken k v) := by
    intro same silent
    rw [silent, same]
    simpa using h
  cases waits : v.channel with
  | nil =>
      rw [← waits]
      exact nothing (by simp only [Workshop.taken, waits]) (by simp [waits])
  | cons line rest =>
      rw [← waits]
      cases listens : v.stage.listens with
      | false =>
          rw [← listens]
          exact nothing (by simp [Workshop.taken, waits, listens]) (by simp [listens])
      | true =>
          have takes : s.taken k v = _ :=
            (step_of_underway there Workshop.taken).symm.trans (next_take there waits listens)
          have begun : v.stage ≠ .placed := by
            intro placed
            rw [placed] at listens
            cases listens
          obtain ⟨o, last, shown, fits⟩ := h.shown v there begun
          have unfinished := fits.unfinished listens
          obtain ⟨proper, follows⟩ := (h.proper o (List.mem_of_getLast? last)).addLine unfinished line
          have shown' : (s.taken k v).operation = some (o.addLine line) := by
            rw [takes]
            change s.operation.map (·.addLine line) = _
            rw [shown]
            rfl
          have now : (s.taken k v).calls k = some { v with channel := rest } := by
            rw [takes]
            exact calls_put ..
          rw [shown', waits]
          refine h.publish there now begun shown' (fits.addLine listens line) proper
            (.inr ⟨o, last, follows⟩) ?_ ?_
          · rw [takes]
            rfl
          · rw [takes]
            exact sound.lt_tickets there

theorem left : Published k seen (s.left k v) := by
  unfold Workshop.left
  split
  · next r o leaving =>
      have gone := (sound.release there s.files).unused rfl k
      obtain ⟨shown, last, -, ends⟩ := h.shown v there (by rw [leaving]; exact nofun)
      rw [leaving] at ends
      constructor
      · exact h.ordered
      · exact h.proper
      · exact h.first
      · exact fun w same => nomatch gone.symm.trans same
      · exact fun w same => nomatch gone.symm.trans same
      · rintro ⟨w, same⟩
        cases gone.symm.trans same
      · intro r' has
        refine .inr ⟨shown, last, ?_⟩
        change Function.update s.returned k _ k = some r' at has
        rw [Function.update_self] at has
        obtain rfl := Option.some.inj has
        exact Operation.EndsAs.map ends Prod.fst
      · exact h.fresh
  · exact h

/-- A step of any call, which is a step of this one if it changes anything. -/
theorem step (j : Nat) (f : Workshop → Nat → Visit → Workshop) (own : Published k seen (f s k v)) :
    Published k seen (s.step j f) := by
  by_cases same : j = k
  · subst same
    rw [step_of_underway there]
    exact own
  · rw [sound.step_of_other there same]
    exact h

/-- A move while the call is under way. -/
theorem next_of_underway (m : Move) :
    Published k (seen ++ if s.publishes k m then (s.next m).operation.toList else []) (s.next m) := by
  have silent : s.publishes k m = false → Published k seen (s.next m) →
      Published k (seen ++ if s.publishes k m then (s.next m).operation.toList else []) (s.next m) := by
    intro nothing same
    rw [nothing]
    simpa using same
  cases m with
  | begin e =>
      refine silent (by simp only [publishes, there]) ?_
      change Published k seen (s.begin e)
      rw [sound.begin_of_held there]
      exact h.keep there there Iff.rfl (fun _ _ => id) rfl
        (Function.update_of_ne (sound.lt_tickets there).ne ..) (Nat.le_succ _)
  | cancel =>
      refine silent (by simp only [publishes, there]) ?_
      exact h.keep there there Iff.rfl (fun _ _ => id) rfl rfl (Nat.le_refl _)
  | turn j =>
      by_cases same : j = k
      · subst same
        have goes : s.next (.turn j) = s.turned j v := step_of_underway there Workshop.turned
        have turned := h.turned sound there
        rw [goes]
        simpa only [publishes, there, beq_self_eq_true, Bool.true_and] using turned
      · have still : s.next (.turn j) = s := sound.step_of_other there same _
        exact silent (by simp [publishes, there, same]) (still.symm ▸ h)
  | take j =>
      by_cases same : j = k
      · subst same
        have goes : s.next (.take j) = s.taken j v := step_of_underway there Workshop.taken
        have taken := h.taken sound there
        rw [goes]
        simpa only [publishes, there, beq_self_eq_true, Bool.true_and] using taken
      · have still : s.next (.take j) = s := sound.step_of_other there same _
        exact silent (by simp [publishes, there, same]) (still.symm ▸ h)
  | ask j host =>
      exact silent (by simp only [publishes, there])
        (h.step sound there j (fun s k v => s.asked k v host) (h.asked there host))
  | send j => exact silent (by simp only [publishes, there]) (h.step sound there j _ (h.sent there))
  | answer j => exact silent (by simp only [publishes, there]) (h.step sound there j _ (h.answered there))
  | leave j => exact silent (by simp only [publishes, there]) (h.step sound there j _ (h.left sound there))
  | abandon j files =>
      have given_up : Published k seen ({ s with files := files }.release k) :=
        h.idle ((sound.release there files).unused rfl k) rfl (Nat.le_refl _)
      have goes := h.step sound there j (fun s k _ => ({ s with files := files } : Workshop).release k) given_up
      exact silent (by simp only [publishes, there]) goes

end underway

theorem next (h : Published k seen s) (sound : s.Sound) (m : Move) :
    Published k (seen ++ if s.publishes k m then (s.next m).operation.toList else []) (s.next m) := by
  cases there : s.calls k with
  | none =>
      have silent : s.publishes k m = false := by simp only [publishes, there]
      rw [silent]
      simpa using h.steps_of_idle sound there (s.steps_next m)
  | some v => exact h.next_of_underway sound there m

theorem run (h : Published k seen s) (sound : s.Sound) (moves : List Move) :
    Published k (seen ++ s.snapshots k moves) (s.run moves) := by
  induction moves generalizing seen s with
  | nil =>
      change Published k (seen ++ []) s
      rwa [List.append_nil]
  | cons m moves ih =>
      rw [snapshots, ← List.append_assoc]
      exact ih (h.next sound m) (sound.steps (s.steps_next m))

end Published

/-- However the steps of the calls on an installer and the cancellations follow each other, whatever the
machine answers and however many lines there are: the snapshots that a call publishes begin with a fresh
operation, and each goes on to all that follow it, with its phase and its progress not higher and its output
at their beginning. Every one of them is in the bounds of its phase, is full just if it is completed and has
an error just if it has failed. None is finished but the last, and the last is when the call has returned,
as the result asks for; until then it is the operation that is shown. A call without a snapshot has been
turned away. -/
theorem snapshots_go_forward (servers : Path) (configs : ServerConfigs) (platform : Platform) (files : Files)
    (moves : List Move) (k : Nat) : ∃ s seen, (opened servers configs platform files).run moves = s ∧
      (opened servers configs platform files).snapshots k moves = seen ∧
      seen.Pairwise Precedes ∧ (∀ o ∈ seen, o.Proper) ∧ (∀ o, seen.head? = some o → o = .start o.package) ∧
      (∀ v, s.calls k = some v → v.stage ≠ .placed → ∃ o, seen.getLast? = some o ∧ s.operation = some o) ∧
      ∀ r, s.returned k = some r → (seen = [] ∧ ∃ running, r = .error (.installing running)) ∨
        ∃ o, seen.getLast? = some o ∧ o.EndsAs r := by
  have published := (Published.opened servers configs platform files k).run
    (sound_opened servers configs platform files) moves
  refine ⟨_, _, rfl, rfl, published.ordered, published.proper, published.first, fun v there begun => ?_,
    published.returned⟩
  obtain ⟨o, last, shown, -⟩ := published.shown v there begun
  exact ⟨o, last, shown⟩

end Workshop

end LanguageHost
