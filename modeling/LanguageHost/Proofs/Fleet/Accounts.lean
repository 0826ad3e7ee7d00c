import LanguageHost.Proofs.Fleet.Tasks
import Mathlib.Data.List.Nodup
import Mathlib.Data.List.Perm.Basic

/-!
The account that the stopping of every server keeps: which servers it has stopped and what came of that, which
one it has in its hands, and which are still to come. Together they are those that were active when it began.
-/
namespace LanguageHost

/-- What is done of stopping the server of a language. -/
inductive Stop where
  | begins (language : String) (link : Nat)
  | ends (language : String) (link : Nat) (result : Except Error Unit)

/-- A server that was stopped, and what came of it. -/
structure Stopped where
  language : String
  link : Nat
  result : Except Error Unit

namespace Stopped

def server (x : Stopped) : String × Nat := (x.language, x.link)

def course (x : Stopped) : List Stop := [.begins x.language x.link, .ends x.language x.link x.result]

def failure? (x : Stopped) : Option (String × Error) :=
  match x.result with
  | .ok () => none
  | .error e => some (x.language, e)

end Stopped

namespace Task

/-- The server that a call is stopping. -/
def stopping? : Task → Option (String × Nat × StopStage)
  | .start r (.replacing i s) => some (r.language, i, s)
  | .stop language (.evicting (.ending i s)) => some (language, i, s)
  | .stopAll (.evicting language (.ending i s) _ _) => some (language, i, s)
  | _ => none

/-- What the next turn of a call does of stopping a server. -/
def stops (f : Fleet) (t : Task) : List Stop :=
  match t.stopping? with
  | none => []
  | some (language, i, s) =>
    (match s with
      | .silencing => [.begins language i]
      | .ending _ => []) ++
    match (f.onLink i (fun l => l.stop f.now s) (.done (.ok ()))).2 with
    | .done r => [.ends language i r]
    | _ => []

/-- A call that starts or stops servers. -/
def manages : Task → Bool
  | .call _ _ => false
  | _ => true

end Task

namespace Fleet

/-- The active servers, each with its language. -/
def started (f : Fleet) : List (String × Nat) :=
  f.slots.keys.filterMap fun language => (f.slot language).active.map (language, ·)

namespace QuitAllStage

/-- The languages whose servers have not been taken yet. -/
def todo : QuitAllStage → List String
  | .fresh => []
  | .next todo _ => todo
  | .evicting language .found todo _ | .evicting language .queued todo _ => language :: todo
  | .evicting _ (.taken _) todo _ | .evicting _ (.ending _ _) todo _ => todo

/-- The server that is being stopped. -/
def hand : QuitAllStage → List (String × Nat)
  | .evicting language (.taken i) _ _ | .evicting language (.ending i _) _ _ => [(language, i)]
  | _ => []

/-- The stop that has begun and not ended. -/
def begun : QuitAllStage → List Stop
  | .evicting language (.ending i (.ending _)) _ _ => [.begins language i]
  | _ => []

def failures : QuitAllStage → Failures
  | .fresh => []
  | .next _ failures | .evicting _ _ _ failures => failures

end QuitAllStage

/-- How far the stopping of every server has come that began in one fleet and goes on in another: what it has
done, and what is still to be done. -/
structure Accounts (before now : Fleet) (stage : QuitAllStage) (log : List Stop) (results : List Stopped) :
    Prop where
  log : log = results.flatMap Stopped.course ++ stage.begun
  failures : stage.failures = results.filterMap Stopped.failure?
  distinct : stage.todo.Nodup
  kept : ∀ language ∈ stage.todo, (now.slot language).active = (before.slot language).active
  taken : ∀ language, language ∉ stage.todo → (now.slot language).active = none
  servers : (results.map Stopped.server ++ (stage.hand ++ stage.todo.filterMap fun language =>
    (before.slot language).active.map (language, ·))).Perm before.started

variable {f before now now' : Fleet} {k : Nat} {stage stage' : QuitAllStage} {log : List Stop}
  {results : List Stopped} {language : String} {todo : List String} {failures : Failures}

theorem mem_keys_of_active {i : Nat} (h : (f.slot language).active = some i) : language ∈ f.slots.keys := by
  unfold slot at h
  cases found : f.slots.get? language with
  | none =>
    rw [found] at h
    cases h
  | some s => exact List.mem_map_of_mem (Table.mem_of_lookup found)

theorem Accounts.start (sorted : before.slots.Sorted) {noted : List String}
    (same : noted.Perm before.slots.keys) (slots : now.slots = before.slots) :
    before.Accounts now (.next noted []) [] [] := by
  constructor
  · rfl
  · rfl
  · exact same.nodup_iff.mpr sorted.nodup_keys
  · intro language _
    rw [slot, slots, slot]
  · intro language absent
    rw [slot, slots]
    by_contra active
    obtain ⟨i, active⟩ := Option.ne_none_iff_exists'.mp active
    exact absent (same.mem_iff.mpr (mem_keys_of_active active))
  · exact same.filterMap _

namespace Accounts

/-- The next stage is about the same servers. -/
theorem keep (h : before.Accounts now stage log results) (begun : stage'.begun = stage.begun)
    (failures : stage'.failures = stage.failures) (todo : stage'.todo = stage.todo)
    (hand : stage'.hand = stage.hand)
    (active : ∀ language, (now'.slot language).active = (now.slot language).active) :
    before.Accounts now' stage' log results := by
  constructor
  · rw [begun, ← h.log]
  · rw [failures, h.failures]
  · rw [todo]
    exact h.distinct
  · rw [todo]
    exact fun language there => (active language).trans (h.kept language there)
  · rw [todo]
    exact fun language absent => (active language).trans (h.taken language absent)
  · rw [todo, hand]
    exact h.servers

/-- A language without a server is passed over. -/
theorem pass (h : before.Accounts now (.evicting language .queued todo failures) log results)
    (free : (now.slot language).active = none)
    (active : ∀ language, (now'.slot language).active = (now.slot language).active) :
    before.Accounts now' (.next todo failures) log results := by
  have first : (before.slot language).active = none :=
    (h.kept language List.mem_cons_self).symm.trans free
  constructor
  · exact h.log
  · exact h.failures
  · exact (List.nodup_cons.mp h.distinct).2
  · intro other there
    exact (active other).trans (h.kept other (List.mem_cons_of_mem _ there))
  · intro other absent
    rw [active]
    by_cases same : other = language
    · exact same ▸ free
    · exact h.taken other (List.not_mem_cons_of_ne_of_not_mem same absent)
  · have servers := h.servers
    simp only [QuitAllStage.todo, QuitAllStage.hand, List.filterMap_cons, first, Option.map_none] at servers
    exact servers

/-- The server of a language is taken. -/
theorem take (h : before.Accounts now (.evicting language .queued todo failures) log results) {i : Nat}
    (there : (now.slot language).active = some i)
    (active : ∀ other, (now'.slot other).active =
      if other = language then none else (now.slot other).active) :
    before.Accounts now' (.evicting language (.taken i) todo failures) log results := by
  have first : (before.slot language).active = some i :=
    (h.kept language List.mem_cons_self).symm.trans there
  obtain ⟨absent, distinct⟩ := List.nodup_cons.mp h.distinct
  constructor
  · exact h.log
  · exact h.failures
  · exact distinct
  · intro other waits
    have apart : other ≠ language := by
      rintro rfl
      exact absent waits
    rw [active, if_neg apart]
    exact h.kept other (List.mem_cons_of_mem _ waits)
  · intro other gone
    rw [active]
    split
    · rfl
    · next apart => exact h.taken other (List.not_mem_cons_of_ne_of_not_mem apart gone)
  · have servers := h.servers
    simp only [QuitAllStage.todo, QuitAllStage.hand, List.filterMap_cons, first, Option.map_some] at servers
    exact servers

theorem begin {i : Nat} {s : EndStage}
    (h : before.Accounts now (.evicting language (.ending i .silencing) todo failures) log results)
    (active : ∀ language, (now'.slot language).active = (now.slot language).active) :
    before.Accounts now' (.evicting language (.ending i (.ending s)) todo failures)
      (log ++ [.begins language i]) results := by
  constructor
  · rw [h.log]
    simp only [QuitAllStage.begun, List.append_nil]
  · exact h.failures
  · exact h.distinct
  · exact fun language there => (active language).trans (h.kept language there)
  · exact fun language absent => (active language).trans (h.taken language absent)
  · exact h.servers

theorem finish {i : Nat} {s : EndStage} {r : Except Error Unit}
    (h : before.Accounts now (.evicting language (.ending i (.ending s)) todo failures) log results)
    (active : ∀ language, (now'.slot language).active = (now.slot language).active) :
    before.Accounts now' (.next todo (withFailure failures language (some r)))
      (log ++ [.ends language i r]) (results ++ [⟨language, i, r⟩]) := by
  constructor
  · rw [h.log]
    simp [QuitAllStage.begun, Stopped.course]
  · have before := h.failures
    simp only [QuitAllStage.failures] at before ⊢
    rw [List.filterMap_append, ← before]
    cases r with
    | ok => exact (List.append_nil _).symm
    | error e => rfl
  · exact h.distinct
  · exact fun language there => (active language).trans (h.kept language there)
  · exact fun language absent => (active language).trans (h.taken language absent)
  · have servers := h.servers
    simpa [QuitAllStage.todo, QuitAllStage.hand, Stopped.server] using servers

end Accounts

theorem active_changeSlot {change : Slot → Slot} (same : ∀ s, (change s).active = s.active)
    (other : String) : ((f.changeSlot language change).slot other).active = (f.slot other).active := by
  rw [slot_changeSlot]
  split
  · next own => rw [same, own]
  · rfl

theorem active_appoint_none (other : String) : ((f.appoint language none).slot other).active =
    if other = language then none else (f.slot other).active := by
  rw [appoint, slot_changeSlot]
  split
  · rfl
  · rfl

theorem evict_queued (f : Fleet) (k : Nat) (language : String) :
    f.evict k language .queued = (f, .wait none) ∨
      ((f.slot language).active = none ∧ f.evict k language .queued = (f.leave language k, .done none)) ∨
      ∃ i, (f.slot language).active = some i ∧
        f.evict k language .queued = (f.appoint language none, .go (.taken i)) := by
  simp only [evict]
  split
  · exact .inl rfl
  · cases active : (f.slot language).active with
    | none => exact .inr (.inl ⟨rfl, rfl⟩)
    | some i => exact .inr (.inr ⟨i, rfl, rfl⟩)

theorem noted_stopAll (noted : stage ≠ .fresh) (rest : (f.stopAll k stage).2.rest? stage = some stage') :
    stage' ≠ .fresh := by
  cases stage with
  | fresh => exact absurd rfl noted
  | next todo failures =>
    cases todo with
    | nil => cases rest
    | cons language todo =>
      cases rest
      rintro ⟨⟩
  | evicting language s todo failures =>
    simp only [stopAll] at rest
    split at rest
    all_goals
      cases rest
      rintro ⟨⟩

/-- A turn keeps account of what it does. -/
theorem Accounts.turn (h : before.Accounts f stage log results) (noted : stage ≠ .fresh)
    (linked : ∀ language i, (language, i) ∈ stage.hand → ∃ l, f.links[i]? = some l)
    (rest : (f.stopAll k stage).2.rest? stage = some stage') :
    ∃ results', before.Accounts (f.stopAll k stage).1 stage' (log ++ (Task.stopAll stage).stops f) results' := by
  cases stage with
  | fresh => exact absurd rfl noted
  | next todo failures =>
    cases todo with
    | nil => cases rest
    | cons language todo =>
      cases rest
      rw [show (Task.stopAll (.next (language :: todo) failures)).stops f = [] from rfl, List.append_nil]
      exact ⟨results, h.keep rfl rfl rfl rfl fun _ => rfl⟩
  | evicting language s todo failures =>
    cases s with
    | found =>
      cases rest
      rw [show (Task.stopAll (.evicting language .found todo failures)).stops f = [] from rfl,
        List.append_nil]
      exact ⟨results, h.keep rfl rfl rfl rfl (active_changeSlot fun _ => rfl)⟩
    | queued =>
      rw [show (Task.stopAll (.evicting language .queued todo failures)).stops f = [] from rfl,
        List.append_nil]
      refine ⟨results, ?_⟩
      rcases f.evict_queued k language with same | ⟨free, same⟩ | ⟨i, active, same⟩
      · simp only [stopAll, same] at rest ⊢
        cases rest
        exact h
      · simp only [stopAll, same] at rest ⊢
        cases rest
        exact h.pass free (active_changeSlot fun _ => rfl)
      · simp only [stopAll, same] at rest ⊢
        cases rest
        exact h.take active active_appoint_none
    | taken i =>
      cases rest
      rw [show (Task.stopAll (.evicting language (.taken i) todo failures)).stops f = [] from rfl,
        List.append_nil]
      exact ⟨results, h.keep rfl rfl rfl rfl (active_changeSlot fun _ => rfl)⟩
    | ending i s =>
      obtain ⟨l, there⟩ := linked language i (List.mem_singleton_self _)
      cases s with
      | silencing =>
        simp only [stopAll, evict, Task.stops, Task.stopping?, onLink_some there] at rest ⊢
        cases rest
        exact ⟨results, h.begin fun _ => rfl⟩
      | ending s =>
        simp only [stopAll, evict, Task.stops, Task.stopping?, onLink_some there, Link.stop] at rest ⊢
        cases turn : (l.shutDown f.now s).2 with
        | wait d =>
          simp only [turn, Turn.lift] at rest ⊢
          cases rest
          rw [List.append_nil, List.append_nil]
          exact ⟨results, h.keep rfl rfl rfl rfl fun _ => rfl⟩
        | go s' =>
          simp only [turn, Turn.lift] at rest ⊢
          cases rest
          rw [List.append_nil, List.append_nil]
          exact ⟨results, h.keep rfl rfl rfl rfl fun _ => rfl⟩
        | done r =>
          simp only [turn, Turn.lift] at rest ⊢
          cases rest
          exact ⟨_, h.finish (active_changeSlot fun _ => rfl)⟩

end Fleet

namespace Fleet

variable {f : Fleet} {k : Nat}

theorem stopAll_done {stage : QuitAllStage} {result : Except ShutdownErrors Unit}
    (done : (f.stopAll k stage).2 = .done result) : ∃ failures, stage = .next [] failures ∧
      result = if failures.isEmpty then .ok () else .error ⟨sortFailures failures⟩ := by
  cases stage with
  | fresh => cases done
  | next todo failures =>
    cases todo with
    | nil =>
      cases done
      exact ⟨failures, rfl, rfl⟩
    | cons language todo => cases done
  | evicting language s todo failures =>
    simp only [stopAll] at done
    split at done
    all_goals cases done

theorem mem_started {language : String} {i : Nat} :
    (language, i) ∈ f.started ↔ (f.slot language).active = some i := by
  simp only [started, List.mem_filterMap, Option.map_eq_some_iff, Prod.mk.injEq]
  constructor
  · rintro ⟨language, -, i, active, rfl, rfl⟩
    exact active
  · intro active
    exact ⟨language, mem_keys_of_active active, i, active, rfl, rfl⟩

theorem apart_started (sorted : f.slots.Sorted) : f.started.Pairwise fun x y => x.1 ≠ y.1 := by
  refine List.Pairwise.filterMap _ (fun language other apart x mine y its => ?_) sorted.nodup_keys
  obtain ⟨i, -, rfl⟩ := Option.map_eq_some_iff.mp mine
  obtain ⟨j, -, rfl⟩ := Option.map_eq_some_iff.mp its
  exact apart

theorem perm_sortFailures (failures : Failures) : (sortFailures failures).Perm failures :=
  List.mergeSort_perm ..

/-- Sorted failures of different languages are strictly sorted. -/
theorem sorted_sortFailures {failures : Failures} (apart : failures.Pairwise fun x y => x.1 ≠ y.1) :
    (sortFailures failures).Pairwise fun x y => x.1 < y.1 := by
  have ordered : (sortFailures failures).Pairwise fun x y => decide (x.1 ≤ y.1) = true := by
    refine List.pairwise_mergeSort (fun x y z first second => ?_) (fun x y => ?_) failures
    · exact decide_eq_true (String.le_trans (of_decide_eq_true first) (of_decide_eq_true second))
    · simpa using String.le_total x.1 y.1
  have apart' : (sortFailures failures).Pairwise fun x y => x.1 ≠ y.1 :=
    ((perm_sortFailures failures).pairwise_iff fun apart => Ne.symm apart).mpr apart
  exact (ordered.and apart').imp fun ⟨le, ne⟩ => Std.lt_of_le_of_ne (of_decide_eq_true le) ne

end Fleet

namespace Stopped

theorem failure?_eq_none {x : Stopped} : x.failure? = none ↔ x.result = .ok () := by
  unfold failure?
  split
  · next ok => simp [ok]
  · next failed => simp [failed]

theorem language_of_failure {x : Stopped} {failure : String × Error} (h : x.failure? = some failure) :
    failure.1 = x.language := by
  unfold failure? at h
  split at h
  · cases h
  · cases h
    rfl

/-- What comes of stopping servers of different languages: no failure just if every stop has succeeded, and else
all of them, in strict order. -/
theorem outcome {results : List Stopped} (apart : results.Pairwise fun x y => x.language ≠ y.language)
    {failures : Fleet.Failures} (same : failures = results.filterMap failure?)
    {result : Except ShutdownErrors Unit}
    (told : result = if failures.isEmpty then .ok () else .error ⟨Fleet.sortFailures failures⟩) :
    (result = .ok () ↔ ∀ x ∈ results, x.result = .ok ()) ∧
      ∀ e, result = .error e → e.failures.Pairwise (fun x y => x.1 < y.1) ∧
        e.failures.Perm (results.filterMap failure?) := by
  have none_failed : failures.isEmpty = true ↔ ∀ x ∈ results, x.result = .ok () := by
    rw [List.isEmpty_iff, same, List.filterMap_eq_nil_iff]
    exact forall₂_congr fun x _ => failure?_eq_none
  subst told
  by_cases empty : failures.isEmpty = true
  · rw [if_pos empty]
    exact ⟨⟨fun _ => none_failed.mp empty, fun _ => rfl⟩, nofun⟩
  · rw [if_neg empty]
    refine ⟨⟨nofun, fun succeeded => absurd (none_failed.mpr succeeded) empty⟩, ?_⟩
    rintro e ⟨⟩
    refine ⟨Fleet.sorted_sortFailures ?_, same ▸ Fleet.perm_sortFailures failures⟩
    rw [same]
    refine apart.filterMap _ fun x y different a mine b its => ?_
    rw [language_of_failure mine, language_of_failure its]
    exact different

end Stopped

end LanguageHost
