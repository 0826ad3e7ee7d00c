import LanguageHost.Session.Fleet
import Mathlib.Logic.Function.Basic

/-!
The slot of a language and the calls that want it. The call in front of the queue holds the slot; it alone
changes the entries, and whatever server was started for the language and not ended is either the active
one or in the hands of that call.
-/
namespace LanguageHost

/-- What a call that is in the queue of a slot has done so far. -/
inductive Grip where
  | waiting
  /-- the published entry is taken back, the active one is to follow -/
  | withdrawing
  /-- there is no server -/
  | bare
  /-- a server is being stopped, or is not yet ready -/
  | carrying (link : Nat)
  /-- the active entry is taken back, the published one is to follow -/
  | taken (link : Nat)
  /-- a new server is published, and is to become the active one -/
  | presenting (link : Nat)
deriving DecidableEq, Repr

namespace Grip

/-- The server that a call has in its hands. -/
def link? : Grip → Option Nat
  | .carrying i | .taken i | .presenting i => some i
  | _ => none

end Grip

/-- What a step does to the servers of a language. -/
inductive Deed where
  | none
  | launches (link : Nat)
  /-- a server is shut down or terminated -/
  | ends (link : Nat)

namespace Slot

/-- The entries, given what the holder of the slot has done. -/
def Suits (s : Slot) : Grip → Prop
  | .waiting => s.running.map Prod.fst = s.active
  | .withdrawing => s.running = none
  | .bare | .carrying _ => s.active = none ∧ s.running = none
  | .taken _ => s.active = none
  | .presenting i => s.active = none ∧ s.running.map Prod.fst = some i

def without (s : Slot) (k : Nat) : Slot := { s with queue := s.queue.filter (· ≠ k) }

/-- All that a step of a call can do to a slot. -/
inductive Move (k : Nat) (s : Slot) : Option Grip → Slot → Option Grip → Deed → Prop
  | stays (g? : Option Grip) : Move k s g? s g? .none
  | joins : Move k s none { s with queue := s.queue ++ [k] } (some .waiting) .none
  | turns (first : s.queue.head? = some k) : Move k s (some .waiting) (s.without k) none .none
  | enters (first : s.queue.head? = some k) (free : s.active = none) :
      Move k s (some .waiting) s (some .bare) .none
  | withdraws (first : s.queue.head? = some k) :
      Move k s (some .waiting) { s with running := none } (some .withdrawing) .none
  | takes (i : Nat) (first : s.queue.head? = some k) (active : s.active = some i) :
      Move k s (some .waiting) { s with active := none } (some (.taken i)) .none
  | finds (free : s.active = none) : Move k s (some .withdrawing) s (some .bare) .none
  | removes (i : Nat) (active : s.active = some i) :
      Move k s (some .withdrawing) { s with active := none } (some (.carrying i)) .none
  | hides (i : Nat) : Move k s (some (.taken i)) { s with running := none } (some (.carrying i)) .none
  | clears (i : Nat) : Move k s (some (.carrying i)) s (some .bare) (.ends i)
  | resigns : Move k s (some .bare) (s.without k) none .none
  | launches (i : Nat) : Move k s (some .bare) s (some (.carrying i)) (.launches i)
  | drops (i : Nat) : Move k s (some (.carrying i)) (s.without k) none (.ends i)
  | publishes (i : Nat) (config : LaunchConfig) :
      Move k s (some (.carrying i)) { s with running := some (i, config) } (some (.presenting i)) .none
  | appoints (i : Nat) :
      Move k s (some (.presenting i)) ({ s with active := some i }.without k) none .none

/-- A slot among the calls: who is in the queue, what its holder has done, and where the servers `mine` are
that were launched for its language, unless they are `ended`. -/
structure Orderly (s : Slot) (grips : Nat → Option Grip) (mine ended : Nat → Prop) : Prop where
  nodup : s.queue.Nodup
  queued : ∀ k, k ∈ s.queue ↔ grips k ≠ none
  first : ∀ k g, grips k = some g → g ≠ .waiting → s.queue.head? = some k
  suits : ∀ k g, grips k = some g → g ≠ .waiting → s.Suits g
  settled : (∀ k g, grips k = some g → g = .waiting) → s.running.map Prod.fst = s.active
  owned : ∀ i, (s.active = some i ∨ ∃ k g, grips k = some g ∧ g.link? = some i) → mine i
  live : ∀ i, mine i → ended i ∨ s.active = some i ∨ ∃ k g, grips k = some g ∧ g.link? = some i

namespace Orderly

variable {s s' : Slot} {grips : Nat → Option Grip} {mine mine' ended ended' : Nat → Prop} {k : Nat}
  {g g' : Grip}

theorem ne_waiting {i : Nat} (h : g.link? = some i) : g ≠ .waiting := by
  rintro rfl
  cases h

theorem empty : Slot.empty.Orderly (fun _ => none) (fun _ => False) ended := by
  constructor
  · exact List.nodup_nil
  · simp [Slot.empty]
  · nofun
  · nofun
  · exact fun _ => rfl
  · rintro i (active | ⟨k, g, own, -⟩)
    · cases active
    · cases own
  · nofun

/-- Whoever is not in front waits. -/
theorem others (h : s.Orderly grips mine ended) (first : s.queue.head? = some k) {j : Nat} {g : Grip}
    (other : j ≠ k) (own : grips j = some g) : g = .waiting := by
  by_contra holds
  exact other (Option.some.inj ((h.first j g own holds).symm.trans first))

/-- What the call in front knows of the entries. -/
theorem suits_first (h : s.Orderly grips mine ended) (own : grips k = some g)
    (first : s.queue.head? = some k) : s.Suits g := by
  by_cases waits : g = .waiting
  · subst waits
    refine h.settled fun j g' own' => ?_
    by_cases same : j = k
    · subst same
      rw [own] at own'
      exact (Option.some.inj own').symm
    · exact h.others first same own'
  · exact h.suits k g own waits

/-- A server is the active one or in the hands of the call in front. -/
theorem live_first (h : s.Orderly grips mine ended) (own : grips k = some g)
    (first : s.queue.head? = some k) {i : Nat} (there : mine i) :
    ended i ∨ s.active = some i ∨ g.link? = some i := by
  rcases h.live i there with gone | active | ⟨j, g', own', carried⟩
  · exact .inl gone
  · exact .inr (.inl active)
  · by_cases same : j = k
    · subst same
      rw [own] at own'
      cases own'
      exact .inr (.inr carried)
    · exact absurd (h.others first same own') (ne_waiting carried)

/-- At most one server of a language has not ended. -/
theorem unique (h : s.Orderly grips mine ended) {i j : Nat} (hi : mine i) (ni : ¬ ended i) (hj : mine j)
    (nj : ¬ ended j) : i = j := by
  have free {k : Nat} {g : Grip} {i : Nat} (own : grips k = some g) (carried : g.link? = some i) :
      s.active = none := by
    have suits := h.suits k g own (ne_waiting carried)
    cases g with
    | waiting | withdrawing | bare => cases carried
    | carrying | presenting => exact suits.1
    | taken => exact suits
  have locate {i : Nat} (hi : mine i) (ni : ¬ ended i) :
      s.active = some i ∨ ∃ k g, grips k = some g ∧ g.link? = some i :=
    (h.live i hi).resolve_left ni
  rcases locate hi ni with active | ⟨k, g, own, carried⟩
  · rcases locate hj nj with active' | ⟨k', g', own', carried'⟩
    · exact Option.some.inj (active.symm.trans active')
    · rw [free own' carried'] at active
      cases active
  · rcases locate hj nj with active' | ⟨k', g', own', carried'⟩
    · rw [free own carried] at active'
      cases active'
    · have first := h.first k g own (ne_waiting carried)
      have first' := h.first k' g' own' (ne_waiting carried')
      cases first.symm.trans first'
      cases own.symm.trans own'
      exact Option.some.inj (carried.symm.trans carried')

/-! Steps. -/

theorem mono (h : s.Orderly grips mine ended) (same : ∀ i, mine' i ↔ mine i)
    (later : ∀ i, ended i → ended' i) : s.Orderly grips mine' ended' :=
  ⟨h.nodup, h.queued, h.first, h.suits, h.settled, fun i there => (same i).mpr (h.owned i there),
    fun i there => (h.live i ((same i).mp there)).imp_left (later i)⟩

theorem join (h : s.Orderly grips mine ended) (own : grips k = none) :
    ({ s with queue := s.queue ++ [k] } : Slot).Orderly (Function.update grips k (some .waiting)) mine
      ended := by
  have absent : k ∉ s.queue := fun there => (h.queued k).mp there own
  have known {j : Nat} {g : Grip} (own' : Function.update grips k (some .waiting) j = some g)
      (holds : g ≠ .waiting) : grips j = some g := by
    by_cases same : j = k
    · subst same
      rw [Function.update_self] at own'
      exact absurd (Option.some.inj own').symm holds
    · rwa [Function.update_of_ne same] at own'
  have kept {j : Nat} {g : Grip} (own' : grips j = some g) :
      Function.update grips k (some .waiting) j = some g := by
    have other : j ≠ k := by
      rintro rfl
      rw [own] at own'
      cases own'
    rwa [Function.update_of_ne other]
  constructor
  · exact List.nodup_append.mpr ⟨h.nodup, List.pairwise_singleton _ k, by
      rintro a there b last rfl
      exact absent (List.mem_singleton.mp last ▸ there)⟩
  · intro j
    by_cases same : j = k
    · subst same
      simp
    · simp [same, h.queued j]
  · intro j g own' holds
    have first := h.first j g (known own' holds) holds
    simp [List.head?_append, first]
  · exact fun j g own' holds => h.suits j g (known own' holds) holds
  · exact fun wait => h.settled fun j g own' => wait j g (kept own')
  · rintro i (active | ⟨j, g, own', carried⟩)
    · exact h.owned i (.inl active)
    · exact h.owned i (.inr ⟨j, g, known own' (ne_waiting carried), carried⟩)
  · intro i there
    rcases h.live i there with gone | active | ⟨j, g, own', carried⟩
    · exact .inl gone
    · exact .inr (.inl active)
    · exact .inr (.inr ⟨j, g, kept own', carried⟩)

/-- The call in front changes the entries and stays in front. -/
theorem change (h : s.Orderly grips mine ended) (own : grips k = some g)
    (first : s.queue.head? = some k) (queue : s'.queue = s.queue) (holds : g' ≠ .waiting)
    (suits : s'.Suits g') (owned : ∀ i, s'.active = some i ∨ g'.link? = some i → mine' i)
    (live : ∀ i, mine' i → ended' i ∨ s'.active = some i ∨ g'.link? = some i) :
    s'.Orderly (Function.update grips k (some g')) mine' ended' := by
  have others {j : Nat} {g : Grip} (own' : Function.update grips k (some g') j = some g)
      (carries : g ≠ .waiting) : j = k ∧ g = g' := by
    by_cases same : j = k
    · subst same
      rw [Function.update_self] at own'
      exact ⟨rfl, (Option.some.inj own').symm⟩
    · rw [Function.update_of_ne same] at own'
      exact absurd (h.others first same own') carries
  constructor
  · exact queue ▸ h.nodup
  · intro j
    rw [queue, h.queued j]
    by_cases same : j = k
    · subst same
      simp [own]
    · rw [Function.update_of_ne same]
  · intro j g own' carries
    rw [queue, (others own' carries).1, first]
  · intro j g own' carries
    exact (others own' carries).2 ▸ suits
  · exact fun wait => absurd (wait k g' (Function.update_self ..)) holds
  · rintro i (active | ⟨j, g, own', carried⟩)
    · exact owned i (.inl active)
    · exact owned i (.inr ((others own' (ne_waiting carried)).2 ▸ carried))
  · intro i there
    rcases live i there with gone | active | carried
    · exact .inl gone
    · exact .inr (.inl active)
    · exact .inr (.inr ⟨k, g', Function.update_self .., carried⟩)

/-- Neither the started server changes nor what is in the hands of the call in front. -/
theorem keeps (h : s.Orderly grips mine ended) (own : grips k = some g) (first : s.queue.head? = some k)
    (queue : s'.queue = s.queue) (holds : g' ≠ .waiting) (suits : s'.Suits g')
    (active : s'.active = s.active) (link : g'.link? = g.link?) :
    s'.Orderly (Function.update grips k (some g')) mine ended := by
  refine h.change own first queue holds suits (fun i there => ?_) fun i there => ?_
  · rw [active, link] at there
    rcases there with there | held
    · exact h.owned i (.inl there)
    · exact h.owned i (.inr ⟨k, g, own, held⟩)
  · rw [active, link]
    exact h.live_first own first there

/-- The call in front takes the started server into its hands. -/
theorem picks (h : s.Orderly grips mine ended) (own : grips k = some g) (first : s.queue.head? = some k)
    (queue : s'.queue = s.queue) (holds : g' ≠ .waiting) (suits : s'.Suits g') {i : Nat}
    (active : s.active = some i) (free : s'.active = none) (empty : g.link? = none)
    (link : g'.link? = some i) : s'.Orderly (Function.update grips k (some g')) mine ended := by
  refine h.change own first queue holds suits (fun j there => ?_) fun j there => ?_
  · rw [free, link] at there
    rcases there with there | held
    · cases there
    · cases held
      exact h.owned i (.inl active)
  · rcases h.live_first own first there with gone | there | held
    · exact .inl gone
    · exact .inr (.inr (link.trans (active.symm.trans there)))
    · rw [empty] at held
      cases held

/-- The call in front leaves. -/
theorem leave (h : s.Orderly grips mine ended) (own : grips k = some g) (first : s.queue.head? = some k)
    (queue : s'.queue = s.queue.filter (· ≠ k)) (settled : s'.running.map Prod.fst = s'.active)
    (owned : ∀ i, s'.active = some i → mine i)
    (live : ∀ i, mine i → ended' i ∨ s'.active = some i) :
    s'.Orderly (Function.update grips k none) mine ended' := by
  have waits {j : Nat} {g : Grip} (own' : Function.update grips k none j = some g) : g = .waiting := by
    by_cases same : j = k
    · subst same
      rw [Function.update_self] at own'
      cases own'
    · rw [Function.update_of_ne same] at own'
      exact h.others first same own'
  constructor
  · exact queue ▸ h.nodup.filter _
  · intro j
    rw [queue]
    by_cases same : j = k
    · subst same
      simp
    · simp [same, h.queued j]
  · exact fun j g own' holds => absurd (waits own') holds
  · exact fun j g own' holds => absurd (waits own') holds
  · exact fun _ => settled
  · rintro i (active | ⟨j, g, own', carried⟩)
    · exact owned i active
    · exact absurd (waits own') (ne_waiting carried)
  · exact fun i there => (live i there).imp_right .inl

/-- The call in front leaves with empty hands. -/
theorem retires (h : s.Orderly grips mine ended) (own : grips k = some g)
    (first : s.queue.head? = some k) (settled : s.running.map Prod.fst = s.active)
    (empty : g.link? = none) : (s.without k).Orderly (Function.update grips k none) mine ended := by
  refine h.leave own first rfl settled (fun i there => h.owned i (.inl there)) fun i there => ?_
  rcases h.live_first own first there with gone | there | held
  · exact .inl gone
  · exact .inr there
  · rw [empty] at held
    cases held

/-- Every step of a call leaves the slot orderly. -/
theorem move {deed : Deed} {g? g?' : Option Grip} (h : s.Orderly grips mine ended) (own : grips k = g?)
    (moved : s.Move k g? s' g?' deed) :
    s'.Orderly (Function.update grips k g?') (fun i => mine i ∨ deed = .launches i)
      (fun i => ended i ∨ deed = .ends i) := by
  have idle {s' : Slot} {grips : Nat → Option Grip} (h : s'.Orderly grips mine ended) :
      s'.Orderly grips (fun i => mine i ∨ Deed.none = .launches i)
        (fun i => ended i ∨ Deed.none = .ends i) :=
    h.mono (fun i => by simp) fun i gone => .inl gone
  cases moved with
  | stays =>
    rw [← own, Function.update_eq_self]
    exact idle h
  | joins => exact idle (h.join own)
  | turns first => exact idle (h.retires own first (h.suits_first own first) rfl)
  | enters first free =>
    have agrees : s.running.map Prod.fst = s.active := h.suits_first own first
    have unpublished : s.running = none := Option.map_eq_none_iff.mp (agrees.trans free)
    exact idle (h.keeps own first rfl nofun ⟨free, unpublished⟩ rfl rfl)
  | withdraws first => exact idle (h.keeps own first rfl nofun rfl rfl rfl)
  | takes i first active => exact idle (h.picks own first rfl nofun rfl active rfl rfl rfl)
  | finds free =>
    have first := h.first k _ own nofun
    have unpublished : s.running = none := h.suits k _ own nofun
    exact idle (h.keeps own first rfl nofun ⟨free, unpublished⟩ rfl rfl)
  | removes i active =>
    have first := h.first k _ own nofun
    have unpublished : s.running = none := h.suits k _ own nofun
    exact idle (h.picks own first rfl nofun ⟨rfl, unpublished⟩ active rfl rfl rfl)
  | hides i =>
    have first := h.first k _ own nofun
    have free : s.active = none := h.suits k _ own nofun
    exact idle (h.keeps own first rfl nofun ⟨free, rfl⟩ rfl rfl)
  | clears i =>
    have first := h.first k _ own nofun
    have empty : s.active = none ∧ s.running = none := h.suits k _ own nofun
    refine h.change own first rfl nofun empty ?_ fun j there => ?_
    · rintro j (there | held)
      · exact .inl (h.owned j (.inl there))
      · cases held
    · rcases h.live_first own first (there.resolve_right nofun) with gone | there | held
      · exact .inl (.inl gone)
      · exact .inr (.inl there)
      · cases held
        exact .inl (.inr rfl)
  | resigns =>
    have first := h.first k _ own nofun
    have empty : s.active = none ∧ s.running = none := h.suits k _ own nofun
    exact idle (h.retires own first (by simp [empty]) rfl)
  | launches i =>
    have first := h.first k _ own nofun
    have empty : s.active = none ∧ s.running = none := h.suits k _ own nofun
    refine h.change own first rfl nofun empty ?_ fun j there => ?_
    · rintro j (there | held)
      · exact .inl (h.owned j (.inl there))
      · cases held
        exact .inr rfl
    · rcases there with there | launched
      · rcases h.live_first own first there with gone | there | held
        · exact .inl (.inl gone)
        · exact .inr (.inl there)
        · cases held
      · cases launched
        exact .inr (.inr rfl)
  | drops i =>
    have first := h.first k _ own nofun
    have empty : s.active = none ∧ s.running = none := h.suits k _ own nofun
    have left : (s.without k).Orderly (Function.update grips k none) mine
        (fun j => ended j ∨ Deed.ends i = .ends j) := by
      refine h.leave own first rfl ?_ (fun j there => h.owned j (.inl there)) fun j there => ?_
      · simp [without, empty]
      · rcases h.live_first own first there with gone | there | held
        · exact .inl (.inl gone)
        · exact .inr there
        · cases held
          exact .inl (.inr rfl)
    exact left.mono (fun i => by simp) fun i gone => gone
  | publishes i config =>
    have first := h.first k _ own nofun
    have empty : s.active = none ∧ s.running = none := h.suits k _ own nofun
    exact idle (h.keeps own first rfl nofun ⟨empty.1, rfl⟩ rfl rfl)
  | appoints i =>
    have first := h.first k _ own nofun
    obtain ⟨free, shown⟩ : s.active = none ∧ s.running.map Prod.fst = some i := h.suits k _ own nofun
    have left : (({ s with active := some i } : Slot).without k).Orderly (Function.update grips k none) mine
        ended := by
      refine h.leave own first rfl shown (fun j there => ?_) fun j there => ?_
      · exact h.owned j (.inr ⟨k, _, own, there⟩)
      · refine (h.live_first own first there).imp_right fun held => ?_
        rcases held with there | held
        · rw [free] at there
          cases there
        · exact held
    exact idle left

end Orderly

end Slot

end LanguageHost
