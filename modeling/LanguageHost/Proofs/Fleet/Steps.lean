import LanguageHost.Proofs.Fleet.Links

/-!
What one step of a call does to the servers of a fleet: one move on the slot of one language, and nothing
to those of the others.
-/
namespace LanguageHost

/-- The server that a step of a call has shut down or terminated. -/
def Deed.ended? : Deed → Option Nat
  | .ends i => some i
  | _ => Option.none

namespace Fleet

/-- A link was made for a language. -/
def Serves (f : Fleet) (language : String) (i : Nat) : Prop :=
  ∃ l, f.links[i]? = some l ∧ l.client.language = language

def IsGone (f : Fleet) (i : Nat) : Prop := ∃ l, f.links[i]? = some l ∧ l.IsGone

namespace Follows

variable {f f' : Fleet} {i : Nat}

theorem isGone (h : f.Follows f') (gone : f.IsGone i) : f'.IsGone i := by
  obtain ⟨l, there, gone⟩ := gone
  obtain ⟨l', there', continues⟩ := h.forward i l there
  exact ⟨l', there', continues.isGone gone⟩

theorem serves (h : f.Follows f') (language : String) : f'.Serves language i ↔ f.Serves language i := by
  constructor
  · rintro ⟨l', there', same⟩
    obtain ⟨l, there, continues⟩ := h.backward there'
    exact ⟨l, there, continues.client.language ▸ same⟩
  · rintro ⟨l, there, same⟩
    obtain ⟨l', there', continues⟩ := h.forward i l there
    exact ⟨l', there', continues.client.language.trans same⟩

end Follows

/-- What a step of call `k` does that works on the slot of a language. -/
structure Works (f : Fleet) (k : Nat) (language : String) (g? : Option Grip) (f' : Fleet)
    (g?' : Option Grip) (deed : Deed) : Prop where
  move : (f.slot language).Move k g? (f'.slot language) g?' deed
  others : ∀ other, other ≠ language → f'.slot other = f.slot other
  kept : ∀ i, f.IsGone i → f'.IsGone i
  serves : ∀ other i, f'.Serves other i ↔ f.Serves other i ∨ other = language ∧ deed = .launches i
  fresh : ∀ i, deed = .launches i → i = f.links.length
  grown : f.links.length ≤ f'.links.length
  sorted : f.slots.Sorted → f'.slots.Sorted

variable {f f' : Fleet} {k : Nat} {language : String} {g? g?' : Option Grip} {deed : Deed}

theorem slot_changeSlot_self (change : Slot → Slot) :
    (f.changeSlot language change).slot language = change (f.slot language) := by
  rw [slot_changeSlot, if_pos rfl]

theorem changeSlot_changeSlot (change change' : Slot → Slot) :
    (f.changeSlot language change).changeSlot language change' =
      f.changeSlot language fun s => change' (change s) := by
  rw [changeSlot, slot_changeSlot_self]
  simp only [changeSlot, setSlot, Table.insert_insert]

namespace Works

/-- A step that starts no server. -/
theorem of_follows (move : (f.slot language).Move k g? (f'.slot language) g?' deed)
    (others : ∀ other, other ≠ language → f'.slot other = f.slot other) (follows : f.Follows f')
    (sorted : f.slots.Sorted → f'.slots.Sorted) (idle : ∀ i, deed ≠ .launches i) :
    f.Works k language g? f' g?' deed := by
  refine ⟨move, others, fun i => follows.isGone, fun other i => ?_, fun i launched => ?_, ?_, sorted⟩
  · rw [follows.serves other]
    constructor
    · exact .inl
    · rintro (there | ⟨-, launched⟩)
      · exact there
      · exact absurd launched (idle i)
  · exact absurd launched (idle i)
  · exact Nat.le_of_eq follows.length.symm

theorem of_change {change : Slot → Slot}
    (move : (f.slot language).Move k g? (change (f.slot language)) g?' deed)
    (idle : ∀ i, deed ≠ .launches i) :
    f.Works k language g? (f.changeSlot language change) g?' deed := by
  refine of_follows ?_ (fun other apart => ?_) (.of_links rfl) (fun h => h.insert ..) idle
  · rwa [slot_changeSlot_self]
  · rw [slot_changeSlot, if_neg apart]

/-- A step on a link. -/
theorem of_slots (move : (f.slot language).Move k g? (f.slot language) g?' deed)
    (slots : f'.slots = f.slots) (follows : f.Follows f') (idle : ∀ i, deed ≠ .launches i) :
    f.Works k language g? f' g?' deed := by
  have same (other : String) : f'.slot other = f.slot other := by rw [slot, slots]; rfl
  refine of_follows ?_ (fun other _ => same other) follows (slots ▸ id) idle
  rwa [same]

theorem stays (slots : f'.slots = f.slots) (follows : f.Follows f') :
    f.Works k language g? f' g? .none :=
  of_slots (.stays g?) slots follows nofun

/-- A step that works on a link first. -/
theorem after {f'' : Fleet} (slots : f'.slots = f.slots) (follows : f.Follows f')
    (works : f'.Works k language g? f'' g?' deed) : f.Works k language g? f'' g?' deed := by
  have same (other : String) : f'.slot other = f.slot other := by rw [slot, slots]; rfl
  constructor
  · exact same language ▸ works.move
  · exact fun other apart => (works.others other apart).trans (same other)
  · exact fun i gone => works.kept i (follows.isGone gone)
  · intro other i
    rw [works.serves, follows.serves]
  · rw [← follows.length]
    exact works.fresh
  · exact follows.length ▸ works.grown
  · exact slots ▸ works.sorted

theorem leaves (move : (f.slot language).Move k g? ((f.slot language).without k) none deed)
    (idle : ∀ i, deed ≠ .launches i) : f.Works k language g? (f.leave language k) none deed :=
  of_change move idle

theorem joins : f.Works k language none (f.join language k) (some .waiting) .none :=
  of_change .joins nofun

theorem publishes {running : Option (Nat × LaunchConfig)}
    (move : (f.slot language).Move k g? { f.slot language with running := running } g?' .none) :
    f.Works k language g? (f.publish language running) g?' .none :=
  of_change move nofun

theorem appoints {active : Option Nat}
    (move : (f.slot language).Move k g? { f.slot language with active := active } g?' .none) :
    f.Works k language g? (f.appoint language active) g?' .none :=
  of_change move nofun

theorem of_launch {l : Link} (same : l.client.language = language) :
    f.Works k language (some .bare) { f with links := f.links ++ [l] }
      (some (.carrying f.links.length)) (.launches f.links.length) := by
  have kept {i : Nat} {l' : Link} (there : f.links[i]? = some l') : (f.links ++ [l])[i]? = some l' := by
    obtain ⟨bound, -⟩ := List.getElem?_eq_some_iff.mp there
    rw [List.getElem?_append_left bound, there]
  constructor
  · exact .launches f.links.length
  · exact fun other _ => rfl
  · rintro i ⟨l', there, gone⟩
    exact ⟨l', kept there, gone⟩
  · intro other i
    constructor
    · rintro ⟨l', there, rfl⟩
      rw [List.getElem?_append] at there
      split at there
      · exact .inl ⟨l', there, rfl⟩
      · obtain ⟨rfl, first⟩ : l = l' ∧ i - f.links.length = 0 := by
          simpa [List.getElem?_singleton, and_comm] using there
        have last : f.links.length = i := by omega
        exact .inr ⟨same, by rw [last]⟩
    · rintro (⟨l', there, rfl⟩ | ⟨rfl, launched⟩)
      · exact ⟨l', kept there, rfl⟩
      · cases launched
        exact ⟨l, by simp, same⟩
  · rintro i ⟨⟩
    rfl
  · rw [List.length_append]
    exact Nat.le_add_right ..
  · exact id

end Works

theorem works_onLink {α : Type} {i : Nat} {step : Link → Link × α} {missing a : α}
    (stepped : f.onLink i step missing = (f', a)) (continues : ∀ l : Link, l.Continues (step l).1) :
    f'.slots = f.slots ∧ f.Follows f' := by
  have slots : (f.onLink i step missing).1.slots = f.slots := onLink_slots
  have follows : f.Follows (f.onLink i step missing).1 := follows_onLink continues
  rw [stepped] at slots follows
  exact ⟨slots, follows⟩

/-- What a call has ended in a turn is gone, and so is what it waits for. -/
def Buries (f : Fleet) {σ α : Type} (reaps : Nat → σ → Prop) (stage : σ) (turn : Turn σ α)
    (ended? : Option Nat) : Prop :=
  (∀ i, ended? = some i → f.IsGone i) ∧ ∀ i s, turn.rest? stage = some s → reaps i s → f.IsGone i

/-- A server that was stopped is gone, and so is one whose process is waited for. -/
theorem gone_stop {i : Nat} {s : StopStage} {missing turn : Turn StopStage (Except Error Unit)}
    (stepped : f.onLink i (fun l => l.stop f.now s) missing = (f', turn))
    (there : ∃ l, f.links[i]? = some l) (known : s.IsReaping → f.IsGone i) :
    (∀ r, turn = .done r → f'.IsGone i) ∧
      ∀ s', turn.rest? s = some s' → s'.IsReaping → f'.IsGone i := by
  obtain ⟨l, there⟩ := there
  have follows := (works_onLink stepped fun l => l.continues_stop f.now s).2
  rw [onLink_some there] at stepped
  cases stepped
  have known' (reaping : s.IsReaping) : l.IsGone := by
    obtain ⟨l', there', gone⟩ := known reaping
    rw [there] at there'
    cases there'
    exact gone
  have placed : (f.setLink i (l.stop f.now s).1).links[i]? = some (l.stop f.now s).1 := by
    rw [links_setLink there, if_pos rfl]
  constructor
  · intro r ended
    exact ⟨_, placed, Link.isGone_of_stopped ended known'⟩
  · intro s' rest reaping
    cases turned : (l.stop f.now s).2 with
    | wait d =>
      rw [turned] at rest
      cases rest
      exact follows.isGone (known reaping)
    | go s'' =>
      rw [turned] at rest
      cases rest
      exact ⟨_, placed, Link.isGone_of_stop_reaping turned reaping⟩
    | done r =>
      rw [turned] at rest
      cases rest

namespace Buries

variable {σ α : Type} {reaps : Nat → σ → Prop} {stage : σ} {ended? : Option Nat}

theorem none_ended : ∀ i, none = some i → f.IsGone i := nofun

theorem wait {d : Option Nat} (unended : ended? = none) (known : ∀ i, reaps i stage → f.IsGone i) :
    f.Buries reaps stage (.wait d : Turn σ α) ended? := by
  constructor
  · rintro i rfl
    cases unended
  · intro i s rest
    cases rest
    exact known i

theorem go {s : σ} (ended : ∀ i, ended? = some i → f.IsGone i) (known : ∀ i, reaps i s → f.IsGone i) :
    f.Buries reaps stage (.go s : Turn σ α) ended? := by
  constructor
  · exact ended
  · intro i s rest
    cases rest
    exact known i

theorem done {a : α} (ended : ∀ i, ended? = some i → f.IsGone i) :
    f.Buries reaps stage (.done a : Turn σ α) ended? := by
  constructor
  · exact ended
  · intro i s rest
    cases rest

end Buries

/-! Starting. -/

namespace StartStage

/-- What a start has done with the slot of its language. -/
def grip : StartStage → Option Grip
  | .fresh | .found => none
  | .queued => some .waiting
  | .unpublished => some .withdrawing
  | .replacing i _ => some (.carrying i)
  | .launching => some .bare
  | .greeting i _ _ | .failed i _ | .greeted i _ | .listening i _ => some (.carrying i)
  | .published i => some (.presenting i)

/-- The process of the server is waited for. -/
def Reaps (i : Nat) : StartStage → Prop
  | .replacing j s => j = i ∧ s.IsReaping
  | _ => False

/-- The server that was shut down or terminated in a turn. -/
def ended? : StartStage → Turn StartStage (Except Error Nat) → Option Nat
  | .replacing i _, .go .launching => some i
  | .failed i _, .done _ => some i
  | _, _ => none

end StartStage

variable {r : StartRequest}

/-- What a step of a start does. -/
def WorksStart (f : Fleet) (k : Nat) (r : StartRequest) (s : StartStage) : Prop :=
  ∃ deed, f.Works k r.language s.grip (f.start k r s).1 (((f.start k r s).2.rest? s).bind StartStage.grip)
    deed ∧ deed.ended? = s.ended? (f.start k r s).2

theorem works_start_queued : f.WorksStart k r .queued := by
  unfold WorksStart
  simp only [start]
  split
  · exact ⟨.none, .stays rfl (.of_links rfl), rfl⟩
  · next held =>
    have first : (f.slot r.language).queue.head? = some k := by simpa [holds] using held
    split
    · next free => exact ⟨.none, .of_slots (.enters first free) rfl (.of_links rfl) nofun, rfl⟩
    · exact ⟨.none, .leaves (.turns first) nofun, rfl⟩
    · exact ⟨.none, .publishes (.withdraws first), rfl⟩

theorem works_start_unpublished : f.WorksStart k r .unpublished := by
  unfold WorksStart
  simp only [start]
  split
  · next free => exact ⟨.none, .of_slots (.finds free) rfl (.of_links rfl) nofun, rfl⟩
  · next i active => exact ⟨.none, .appoints (.removes i active), rfl⟩

theorem works_start_replacing (i : Nat) (s : StopStage) : f.WorksStart k r (.replacing i s) := by
  rcases stepped : f.onLink i (fun l => l.stop f.now s) (.done (.ok ())) with ⟨f', turn⟩
  obtain ⟨slots, follows⟩ := works_onLink stepped fun l => l.continues_stop f.now s
  unfold WorksStart
  simp only [start, stepped]
  cases turn with
  | wait d => exact ⟨.none, .stays slots follows, rfl⟩
  | go s' => exact ⟨.none, .stays slots follows, rfl⟩
  | done result => exact ⟨.ends i, .of_slots (.clears i) slots follows nofun, rfl⟩

theorem works_start_launching : f.WorksStart k r .launching := by
  unfold WorksStart
  simp only [start]
  split
  · exact ⟨.none, .leaves .resigns nofun, rfl⟩
  · next i config f' launched =>
    simp only [launch, bind, Except.bind] at launched
    split at launched
    · cases launched
    · split at launched
      · cases launched
      · cases launched
        exact ⟨.launches f.links.length, .of_launch rfl, rfl⟩

theorem works_start_greeting (i : Nat) (config : LaunchConfig) (s : GreetStage) :
    f.WorksStart k r (.greeting i config s) := by
  rcases stepped : f.onClient i (fun c => c.greet f.now s) (.done (.error (.crashed r.language))) with
    ⟨f', turn⟩
  obtain ⟨slots, follows⟩ := works_onLink stepped fun l => l.continues_greet f.now s
  unfold WorksStart
  simp only [start, stepped]
  cases turn with
  | wait d => exact ⟨.none, .stays slots follows, rfl⟩
  | go s' => exact ⟨.none, .stays slots follows, rfl⟩
  | done result =>
    cases result with
    | error e => exact ⟨.none, .stays slots follows, rfl⟩
    | ok j => exact ⟨.none, .stays slots follows, rfl⟩

theorem works_start_greeted (i : Nat) (config : LaunchConfig) :
    f.WorksStart k r (.greeted i config) := by
  rcases stepped : f.onLink i (fun l => (l.startListening config.settings).swap) false with ⟨f', first⟩
  obtain ⟨slots, follows⟩ := works_onLink stepped fun l => (l.stirs_startListening config.settings).continues
  unfold WorksStart
  simp only [start, stepped]
  cases first with
  | true => exact ⟨.none, .stays slots follows, rfl⟩
  | false => exact ⟨.none, .stays slots follows, rfl⟩

theorem works_start_failed (i : Nat) (e : Error) : f.WorksStart k r (.failed i e) := by
  rcases stepped : f.onLink i (fun l => (l.terminate, ())) () with ⟨f', ended⟩
  obtain ⟨slots, follows⟩ := works_onLink stepped fun l => l.continues_terminate
  unfold WorksStart
  simp only [start, stepped]
  exact ⟨.ends i, .after slots follows (.leaves (.drops i) nofun), rfl⟩

theorem works_start (k : Nat) (r : StartRequest) (s : StartStage) : f.WorksStart k r s := by
  cases s with
  | fresh => exact ⟨.none, .of_change (.stays none) nofun, rfl⟩
  | found => exact ⟨.none, .joins, rfl⟩
  | queued => exact works_start_queued
  | unpublished => exact works_start_unpublished
  | replacing i s => exact works_start_replacing i s
  | launching => exact works_start_launching
  | greeting i config s => exact works_start_greeting i config s
  | failed i e => exact works_start_failed i e
  | greeted i config => exact works_start_greeted i config
  | listening i config => exact ⟨.none, .publishes (.publishes i config), rfl⟩
  | published i =>
    unfold WorksStart
    simp only [start, appoint, leave, changeSlot_changeSlot]
    exact ⟨.none, .of_change (.appoints i) nofun, rfl⟩

theorem gone_start_replacing {i : Nat} {s : StopStage} (there : ∃ l, f.links[i]? = some l)
    (known : s.IsReaping → f.IsGone i) :
    (f.start k r (.replacing i s)).1.Buries StartStage.Reaps (.replacing i s)
      (f.start k r (.replacing i s)).2
      (StartStage.ended? (.replacing i s) (f.start k r (.replacing i s)).2) := by
  rcases stepped : f.onLink i (fun l => l.stop f.now s) (.done (.ok ())) with ⟨f', turn⟩
  obtain ⟨done, rest⟩ := gone_stop stepped there known
  simp only [start, stepped]
  cases turn with
  | done result =>
    refine .go (fun j ended => ?_) fun _ => False.elim
    cases ended
    exact done result rfl
  | wait d =>
    refine .wait rfl fun j waits => ?_
    obtain ⟨rfl, reaping⟩ := waits
    exact rest s rfl reaping
  | go s' =>
    refine .go nofun fun j waits => ?_
    obtain ⟨rfl, reaping⟩ := waits
    exact rest s' rfl reaping

theorem gone_start_failed {i : Nat} {e : Error} (there : ∃ l, f.links[i]? = some l) :
    (f.start k r (.failed i e)).1.Buries StartStage.Reaps (.failed i e) (f.start k r (.failed i e)).2
      (some i) := by
  obtain ⟨l, there⟩ := there
  have placed : (f.setLink i l.terminate).links[i]? = some l.terminate := by
    rw [links_setLink there, if_pos rfl]
  simp only [start, onLink_some there]
  refine .done fun j ended => ?_
  cases ended
  exact ⟨_, placed, l.isGone_terminate⟩

theorem gone_start (k : Nat) (r : StartRequest) {s : StartStage}
    (there : ∀ i, s.grip = some (.carrying i) → ∃ l, f.links[i]? = some l)
    (known : ∀ i, s.Reaps i → f.IsGone i) :
    (f.start k r s).1.Buries StartStage.Reaps s (f.start k r s).2 (s.ended? (f.start k r s).2) := by
  cases s with
  | fresh => exact .go nofun fun _ => False.elim
  | found => exact .go nofun fun _ => False.elim
  | queued =>
    simp only [start]
    split
    · exact .wait rfl fun _ => False.elim
    · split
      · exact .go nofun fun _ => False.elim
      · exact .done nofun
      · exact .go nofun fun _ => False.elim
  | unpublished =>
    simp only [start]
    split
    · exact .go nofun fun _ => False.elim
    · exact .go nofun fun _ waits => waits.2.elim
  | replacing i s => exact gone_start_replacing (there i rfl) fun reaping => known i ⟨rfl, reaping⟩
  | launching =>
    simp only [start]
    split
    · exact .done nofun
    · exact .go nofun fun _ => False.elim
  | greeting i config s =>
    simp only [start]
    split
    · exact .go nofun fun _ => False.elim
    · exact .go nofun fun _ => False.elim
    · exact .go nofun fun _ => False.elim
    · exact .wait rfl fun _ => False.elim
  | failed i e => exact gone_start_failed (there i rfl)
  | greeted i config =>
    simp only [start]
    split
    · exact .go nofun fun _ => False.elim
    · exact .go nofun fun _ => False.elim
  | listening i config => exact .go nofun fun _ => False.elim
  | published i => exact .done nofun

/-! Stopping. -/

namespace EvictStage

def grip : EvictStage → Option Grip
  | .found => none
  | .queued => some .waiting
  | .taken i => some (.taken i)
  | .ending i _ => some (.carrying i)

def Reaps (i : Nat) : EvictStage → Prop
  | .ending j s => j = i ∧ s.IsReaping
  | _ => False

def ended? : EvictStage → Turn EvictStage (Option (Except Error Unit)) → Option Nat
  | .ending i _, .done _ => some i
  | _, _ => none

end EvictStage

/-- What a step of a stop does. -/
def WorksEvict (f : Fleet) (k : Nat) (language : String) (s : EvictStage) : Prop :=
  ∃ deed, f.Works k language s.grip (f.evict k language s).1
    (((f.evict k language s).2.rest? s).bind EvictStage.grip) deed ∧
      deed.ended? = s.ended? (f.evict k language s).2

theorem works_evict (k : Nat) (language : String) (s : EvictStage) : f.WorksEvict k language s := by
  unfold WorksEvict
  cases s with
  | found => exact ⟨.none, .joins, rfl⟩
  | queued =>
    simp only [evict]
    split
    · exact ⟨.none, .stays rfl (.of_links rfl), rfl⟩
    · next held =>
      have first : (f.slot language).queue.head? = some k := by simpa [holds] using held
      split
      · exact ⟨.none, .leaves (.turns first) nofun, rfl⟩
      · next i active => exact ⟨.none, .appoints (.takes i first active), rfl⟩
  | taken i => exact ⟨.none, .publishes (.hides i), rfl⟩
  | ending i s =>
    rcases stepped : f.onLink i (fun l => l.stop f.now s) (.done (.ok ())) with ⟨f', turn⟩
    obtain ⟨slots, follows⟩ := works_onLink stepped fun l => l.continues_stop f.now s
    simp only [evict, stepped]
    cases turn with
    | wait d => exact ⟨.none, .stays slots follows, rfl⟩
    | go s' => exact ⟨.none, .stays slots follows, rfl⟩
    | done result => exact ⟨.ends i, .after slots follows (.leaves (.drops i) nofun), rfl⟩

theorem gone_evict (k : Nat) (language : String) {s : EvictStage}
    (there : ∀ i, s.grip = some (.carrying i) → ∃ l, f.links[i]? = some l)
    (known : ∀ i, s.Reaps i → f.IsGone i) :
    (f.evict k language s).1.Buries EvictStage.Reaps s (f.evict k language s).2
      (s.ended? (f.evict k language s).2) := by
  cases s with
  | found => exact .go nofun fun _ => False.elim
  | queued =>
    simp only [evict]
    split
    · exact .wait rfl fun _ => False.elim
    · split
      · exact .done nofun
      · exact .go nofun fun _ => False.elim
  | taken i => exact .go nofun fun _ waits => waits.2.elim
  | ending i s =>
    rcases stepped : f.onLink i (fun l => l.stop f.now s) (.done (.ok ())) with ⟨f', turn⟩
    obtain ⟨done, rest⟩ := gone_stop stepped (there i rfl) fun reaping => known i ⟨rfl, reaping⟩
    simp only [evict, stepped]
    cases turn with
    | done result =>
      refine .done fun j ended => ?_
      cases ended
      exact done result rfl
    | wait d =>
      refine .wait rfl fun j waits => ?_
      obtain ⟨rfl, reaping⟩ := waits
      exact rest s rfl reaping
    | go s' =>
      refine .go nofun fun j waits => ?_
      obtain ⟨rfl, reaping⟩ := waits
      exact rest s' rfl reaping

end Fleet

end LanguageHost
