import LanguageHost.Proofs.Fleet.Slots
import LanguageHost.Proofs.Session.Asking
import LanguageHost.Proofs.Table
import LanguageHost.Session.Schedule

/-!
The links of a fleet and what calls do to them: a link stays one for its language, what is gone stays gone,
and a link that was shut down or terminated is gone.
-/
namespace LanguageHost

namespace Link

/-- The connection is gone, and the process is not held. -/
def IsGone (l : Link) : Prop := l.client.isClosed = true ∧ l.holdsProcess = false

theorem Continues.isGone {l l' : Link} (h : l.Continues l') (gone : l.IsGone) : l'.IsGone :=
  ⟨h.client.closed gone.1, h.released gone.2⟩

theorem isGone_terminate (l : Link) : l.terminate.IsGone := by
  unfold terminate
  dsimp only
  split
  · exact ⟨rfl, rfl⟩
  · next unheld => exact ⟨rfl, by simpa using unheld⟩

theorem continues_terminate (l : Link) : l.Continues l.terminate := l.stirs_terminate.continues

variable (now : Nat) (l : Link)

theorem released_shutDown (s : EndStage) (h : l.holdsProcess = false) :
    (l.shutDown now s).1.holdsProcess = false := by
  cases s with
  | asking st =>
    simp only [shutDown]
    split
    · exact h
    · exact h
    · exact h
    · exact h
  | closing r =>
    simp only [shutDown]
    split
    · exact h
    · exact h
  | flushing r deadline =>
    simp only [shutDown]
    split
    · exact h
    · exact h
  | draining r =>
    simp only [shutDown]
    split
    · split
      · rfl
      · exact h
    · exact h
  | reaping r deadline =>
    simp only [shutDown]
    split
    · exact h
    · split
      · exact h
      · exact h

theorem continues_shutDown (s : EndStage) : l.Continues (l.shutDown now s).1 := by
  have moved := (ClientCall.steps now l (.shutDown s)).continues
  exact ⟨moved, released_shutDown now l s⟩

theorem continues_stop (s : StopStage) : l.Continues (l.stop now s).1 := by
  cases s with
  | silencing => exact l.stirs_stopListening.continues
  | ending s => exact continues_shutDown now l s

theorem continues_greet (s : GreetStage) :
    l.Continues (l.onClient fun c => c.greet now s).1 := by
  have moved := (ClientCall.steps now l (.greet s)).continues
  exact .of_client moved

end Link

/-! The end of a session. -/

/-- The connection has been closed, and the process is waited for. -/
def EndStage.IsReaping : EndStage → Prop
  | .reaping _ _ => True
  | _ => False

def StopStage.IsReaping : StopStage → Prop
  | .silencing => False
  | .ending s => s.IsReaping

namespace Link

variable {now : Nat} {l : Link} {result : Except Error Unit}

theorem isGone_disconnect {d : Option Nat} (h : l.holdsProcess = false) :
    ({ l with client := Client.disconnect { l.client with drainUntil := d } } : Link).IsGone := ⟨rfl, h⟩

/-- A link is gone when its process is waited for. -/
theorem isGone_of_reaping {s s' : EndStage} (turn : (l.shutDown now s).2 = .go s') (reaping : s'.IsReaping) :
    (l.shutDown now s).1.IsGone := by
  cases s with
  | asking st =>
    simp only [shutDown] at turn
    split at turn
    · cases turn
      cases reaping
    · cases turn
      cases reaping
    · cases turn
      cases reaping
    · cases turn
  | closing r =>
    simp only [shutDown] at turn
    split at turn
    · cases turn
      cases reaping
    · cases turn
      cases reaping
  | flushing r deadline =>
    simp only [shutDown] at turn
    split at turn
    · cases turn
      cases reaping
    · cases turn
  | draining r =>
    simp only [shutDown] at turn ⊢
    split
    · split
      · exact ⟨rfl, rfl⟩
      · next unheld => exact isGone_disconnect (by simpa using unheld)
    · next waits =>
      rw [if_neg waits] at turn
      cases turn
  | reaping r deadline =>
    simp only [shutDown] at turn
    split at turn
    · cases turn
    · split at turn
      · cases turn
      · cases turn

/-- A link is gone when its session has ended. -/
theorem isGone_of_done {s : EndStage} (turn : (l.shutDown now s).2 = .done result)
    (known : s.IsReaping → l.IsGone) : (l.shutDown now s).1.IsGone := by
  cases s with
  | asking st =>
    simp only [shutDown] at turn
    split at turn
    all_goals cases turn
  | closing r =>
    simp only [shutDown] at turn
    split at turn
    all_goals cases turn
  | flushing r deadline =>
    simp only [shutDown] at turn
    split at turn
    all_goals cases turn
  | draining r =>
    simp only [shutDown] at turn ⊢
    split
    · split
      · exact ⟨rfl, rfl⟩
      · next unheld => exact isGone_disconnect (by simpa using unheld)
    · next waits =>
      rw [if_neg waits] at turn
      cases turn
  | reaping r deadline => exact (continues_shutDown now l _).isGone (known trivial)

theorem isGone_of_stop_reaping {s s' : StopStage} (turn : (l.stop now s).2 = .go s')
    (reaping : s'.IsReaping) : (l.stop now s).1.IsGone := by
  cases s with
  | silencing =>
    cases turn
    cases reaping
  | ending s =>
    simp only [stop] at turn ⊢
    cases ended : (l.shutDown now s).2 with
    | go s'' =>
      rw [ended] at turn
      cases turn
      exact isGone_of_reaping ended reaping
    | wait d =>
      rw [ended] at turn
      cases turn
    | done r =>
      rw [ended] at turn
      cases turn

theorem isGone_of_stopped {s : StopStage} (turn : (l.stop now s).2 = .done result)
    (known : s.IsReaping → l.IsGone) : (l.stop now s).1.IsGone := by
  cases s with
  | silencing => cases turn
  | ending s =>
    simp only [stop] at turn ⊢
    cases ended : (l.shutDown now s).2 with
    | go s'' =>
      rw [ended] at turn
      cases turn
    | wait d =>
      rw [ended] at turn
      cases turn
    | done r => exact isGone_of_done ended known

end Link

namespace ClientCall

theorem continues_step (call : ClientCall) (now : Nat) (l : Link) : l.Continues (call.step now l).1 := by
  have moved := (steps now l call).continues
  refine ⟨moved, fun released => ?_⟩
  cases call with
  | ask q s => exact released
  | lookUp q s => exact released
  | greet s => exact released
  | shutDown s => exact Link.released_shutDown now l s released

end ClientCall

/-! Fleets. -/

namespace Fleet

theorem slot_changeSlot (f : Fleet) (language other : String) (change : Slot → Slot) :
    (f.changeSlot language change).slot other =
      if other = language then change (f.slot language) else f.slot other := by
  simp only [changeSlot, setSlot, slot, Table.get?_insert]
  split
  · rfl
  · rfl

/-- Every link of a later fleet continues one of an earlier, and there are no others. -/
structure Follows (f f' : Fleet) : Prop where
  forward : ∀ (i : Nat) (l : Link), f.links[i]? = some l → ∃ l', f'.links[i]? = some l' ∧ l.Continues l'
  length : f'.links.length = f.links.length

namespace Follows

theorem of_links {f f' : Fleet} (h : f'.links = f.links) : f.Follows f' := by
  constructor
  · intro i l there
    exact ⟨l, by rwa [h], .refl l⟩
  · rw [h]

theorem trans {f f' f'' : Fleet} (h : f.Follows f') (h' : f'.Follows f'') : f.Follows f'' := by
  constructor
  · intro i l there
    obtain ⟨l', there', continues⟩ := h.forward i l there
    obtain ⟨l'', there'', continues'⟩ := h'.forward i l' there'
    exact ⟨l'', there'', continues.trans continues'⟩
  · exact h'.length.trans h.length

theorem backward {f f' : Fleet} (h : f.Follows f') {i : Nat} {l' : Link} (there : f'.links[i]? = some l') :
    ∃ l, f.links[i]? = some l ∧ l.Continues l' := by
  obtain ⟨bound, -⟩ := List.getElem?_eq_some_iff.mp there
  rw [h.length] at bound
  obtain ⟨l'', there'', continues⟩ := h.forward i _ (List.getElem?_eq_getElem bound)
  rw [there] at there''
  cases there''
  exact ⟨_, List.getElem?_eq_getElem bound, continues⟩

end Follows

variable {α : Type} {f : Fleet} {i : Nat} {step : Link → Link × α} {missing : α}

theorem onLink_slots : (f.onLink i step missing).1.slots = f.slots := by
  unfold onLink
  split
  · rfl
  · rfl

theorem onLink_some {l : Link} (there : f.links[i]? = some l) :
    f.onLink i step missing = (f.setLink i (step l).1, (step l).2) := by
  simp only [onLink, there]

theorem links_setLink {l l' : Link} (there : f.links[i]? = some l) (j : Nat) :
    (f.setLink i l').links[j]? = if j = i then some l' else f.links[j]? := by
  obtain ⟨bound, -⟩ := List.getElem?_eq_some_iff.mp there
  rw [setLink, List.getElem?_set]
  by_cases same : j = i
  · subst same
    simp [bound]
  · simp [same, Ne.symm same]

theorem follows_onLink (h : ∀ l : Link, l.Continues (step l).1) : f.Follows (f.onLink i step missing).1 := by
  cases there : f.links[i]? with
  | none =>
    simp only [onLink, there]
    exact .of_links rfl
  | some l =>
    rw [onLink_some there]
    constructor
    · intro j l₁ there₁
      rw [links_setLink there]
      by_cases same : j = i
      · subst same
        rw [there] at there₁
        cases there₁
        exact ⟨_, if_pos rfl, h l⟩
      · exact ⟨l₁, by rw [if_neg same, there₁], .refl l₁⟩
    · exact List.length_set

end Fleet

end LanguageHost
