import LanguageHost.Proofs.Fleet.Traffic
import LanguageHost.Proofs.Session.Standing

/-!
The listening of each link in a fleet. Whoever begins or cancels it has the link in hand and knows how it
stands; to all others the link goes on. So a server that the slots tell of is listened to, and whoever asks a
server to end has cancelled its listener before.
-/
namespace LanguageHost

namespace Link

variable (now : Nat) (l : Link)

theorem steady_shutDown (s : EndStage) : (l.shutDown now s).1.isCancelled = l.isCancelled ∧
    (l.shutDown now s).1.client.isReading = l.client.isReading := by
  cases s with
  | asking s =>
    have asked : l.client.KeepsConnection (l.client.ask .shutdown now s).1 := .of_exchange ..
    simp only [shutDown]
    split
    · next stepped =>
      rw [stepped] at asked
      refine ⟨rfl, Eq.trans ?_ asked.reading⟩
      dsimp only
      unfold Client.sayExit
      split
      · next told => exact (Client.KeepsConnection.of_enqueue told).reading
      · rfl
    all_goals
      next stepped =>
      rw [stepped] at asked
      exact ⟨rfl, asked.reading⟩
  | closing r =>
    simp only [shutDown]
    split
    · next told => exact ⟨rfl, (Client.KeepsConnection.of_enqueue told).reading⟩
    · exact ⟨rfl, rfl⟩
  | flushing r deadline =>
    simp only [shutDown]
    split
    · exact ⟨rfl, rfl⟩
    · exact ⟨rfl, rfl⟩
  | draining r =>
    simp only [shutDown]
    split
    · split
      · exact ⟨rfl, rfl⟩
      · exact ⟨rfl, rfl⟩
    · exact ⟨rfl, rfl⟩
  | reaping r deadline =>
    simp only [shutDown]
    split
    · exact ⟨rfl, rfl⟩
    · split
      · exact ⟨rfl, rfl⟩
      · exact ⟨rfl, rfl⟩

variable {l}

/-- A session that ends leaves its listener cancelled. -/
theorem shutDown_silenced (s : EndStage) (before : l.Stands .silenced) (tended : l.Tended) :
    (l.shutDown now s).1.Stands .silenced ∧ (l.shutDown now s).1.Tended ∧
      (l.shutDown now s).1.listening = .stopped := by
  obtain ⟨cancelled, reading⟩ := l.steady_shutDown now s
  have continues := continues_shutDown now l s
  have listening : (l.shutDown now s).1.listening = l.listening :=
    congrArg Ear.listening (ClientCall.ear_step now l (.shutDown s))
  have silenced : (l.shutDown now s).1.isCancelled = true := cancelled.trans before
  have stopped : (l.shutDown now s).1.listening = .stopped := listening.trans (tended.silent before)
  refine ⟨silenced, ⟨fun _ => stopped, fun unread => ?_, fun heard => ?_⟩, stopped⟩
  · exact continues.client.closed (tended.drained (reading.symm.trans unread))
  · cases silenced.symm.trans heard.2

end Link

/-- What a stop knows of the link. -/
def StopStage.standing : StopStage → Link.Standing
  | .silencing => .leaving
  | .ending _ => .silenced

namespace Link

variable {l : Link} {now : Nat}

theorem stop_standing (now : Nat) {s : StopStage} (before : l.Stands s.standing) (tended : l.Tended) :
    (l.stop now s).1.Stands .silenced ∧ (l.stop now s).1.Tended ∧ (l.stop now s).1.listening = .stopped := by
  cases s with
  | silencing => exact stopListening_leaving before tended
  | ending s => exact shutDown_silenced now s before tended

/-- After its first step a stop is past the listening. -/
theorem stop_rest {s s' : StopStage} (rest : (l.stop now s).2.rest? s = some s') : s'.standing = .silenced := by
  cases s with
  | silencing =>
    cases rest
    rfl
  | ending s =>
    simp only [stop, Turn.rest?_lift] at rest
    obtain ⟨s, -, rfl⟩ := Option.map_eq_some_iff.mp rest
    rfl

end Link

namespace Fleet

def Stands (f : Fleet) (i : Nat) (st : Link.Standing) : Prop := ∃ l, f.links[i]? = some l ∧ l.Stands st

/-- What a call knows is so. -/
def Knows (f : Fleet) (known? : Option (Nat × Link.Standing)) : Prop := ∀ i st, known? = some (i, st) → f.Stands i st

structure Tended (f : Fleet) : Prop where
  links : ∀ (i : Nat) (l : Link), f.links[i]? = some l → l.Tended
  sorted : f.slots.Sorted

/-- What a step does that is a call's: it reports nothing, and the links that it does not have in hand go on. -/
structure Tends (f f' : Fleet) (held : Nat → Prop) : Prop where
  forward : ∀ (i : Nat) (l : Link), f.links[i]? = some l → ∃ l', f'.links[i]? = some l' ∧ l.Onward l' ∧
    (held i ∨ l.Goes l')
  tended : f'.Tended
  events : f'.events = f.events

variable {f f' : Fleet} {held : Nat → Prop} {language : String} {i : Nat}

theorem Knows.none : f.Knows none := nofun

theorem Knows.some {st : Link.Standing} (h : f.Stands i st) : f.Knows (some (i, st)) := by
  intro j st' same
  cases same
  exact h

namespace Tends

theorem refl (h : f.Tended) : f.Tends f held :=
  ⟨fun _ l there => ⟨l, there, .refl l, .inr (.refl l)⟩, h, rfl⟩

/-- Slots are no concern of links. -/
theorem change (h : f.Tends f' held) (language : String) (change : Slot → Slot) :
    f.Tends (f'.changeSlot language change) held :=
  ⟨h.forward, ⟨h.tended.links, h.tended.sorted.insert _ _⟩, h.events⟩

theorem join (h : f.Tends f' held) (language : String) (k : Nat) : f.Tends (f'.join language k) held :=
  h.change language _

theorem leave (h : f.Tends f' held) (language : String) (k : Nat) : f.Tends (f'.leave language k) held :=
  h.change language _

theorem appoint (h : f.Tends f' held) (language : String) (active : Option Nat) :
    f.Tends (f'.appoint language active) held :=
  h.change language _

theorem publish (h : f.Tends f' held) (language : String) (running : Option (Nat × LaunchConfig)) :
    f.Tends (f'.publish language running) held :=
  h.change language _

theorem stands (h : f.Tends f' held) {st : Link.Standing} (before : f.Stands i st) (free : ¬ held i) :
    f'.Stands i st := by
  obtain ⟨l, there, stands⟩ := before
  obtain ⟨l', there', -, course⟩ := h.forward i l there
  exact ⟨l', there', (course.resolve_left free).stands stands⟩

/-- A step on a link that is in hand, or goes on. -/
theorem of_onLink {α : Type} {step : Link → Link × α} {missing : α} {l : Link} (h : f.Tended)
    (there : f.links[i]? = some l) (onward : l.Onward (step l).1) (course : held i ∨ l.Goes (step l).1)
    (tended : (step l).1.Tended) : f.Tends (f.onLink i step missing).1 held := by
  rw [onLink_some there]
  constructor
  · intro j l' there'
    rw [links_setLink there]
    by_cases same : j = i
    · subst same
      cases there.symm.trans there'
      exact ⟨_, if_pos rfl, onward, course⟩
    · exact ⟨l', by rw [if_neg same, there'], .refl l', .inr (.refl l')⟩
  · refine ⟨fun j l' there' => ?_, h.sorted⟩
    rw [links_setLink there] at there'
    split at there'
    · cases there'
      exact tended
    · exact h.links j l' there'
  · rfl

theorem of_goes {α : Type} {step : Link → Link × α} {missing : α} (h : f.Tended)
    (goes : ∀ l : Link, l.Goes (step l).1) : f.Tends (f.onLink i step missing).1 held := by
  cases there : f.links[i]? with
  | none =>
    simp only [onLink, there]
    exact .refl h
  | some l =>
    have course := goes l
    exact .of_onLink h there course.onward (.inr course) (course.tended (h.links i l there))

end Tends

theorem stands_onLink {α : Type} {step : Link → Link × α} {missing : α} {l : Link} {st : Link.Standing}
    (there : f.links[i]? = some l) (stands : (step l).1.Stands st) :
    (f.onLink i step missing).1.Stands i st := by
  rw [onLink_some there]
  exact ⟨_, by rw [links_setLink there, if_pos rfl], stands⟩

/-- A stop cancels the listening first. -/
theorem tends_stop (held : Nat → Prop) {s : StopStage} (h : f.Tended) (known : f.Stands i s.standing)
    (holds : held i) :
    f.Tends (f.onLink i (fun l => l.stop f.now s) (.done (.ok ()))).1 held ∧
      ∀ s', (f.onLink i (fun l => l.stop f.now s) (.done (.ok ()))).2.rest? s = some s' →
        (f.onLink i (fun l => l.stop f.now s) (.done (.ok ()))).1.Stands i s'.standing := by
  obtain ⟨l, there, stands⟩ := known
  obtain ⟨silenced, tended, stopped⟩ := Link.stop_standing f.now stands (h.links i l there)
  constructor
  · exact .of_onLink h there ⟨l.continues_stop f.now s, fun _ => stopped⟩ (.inl holds) tended
  · intro s' rest
    have after : (l.stop f.now s).1.Stands s'.standing := by
      rw [onLink_some there] at rest
      rw [Link.stop_rest rest]
      exact silenced
    exact stands_onLink there after

/-! Starting. -/

/-- What a start knows of the link that it works on. -/
def StartStage.standing : StartStage → Option (Nat × Link.Standing)
  | .replacing i s => some (i, s.standing)
  | .greeting i _ _ | .greeted i _ => some (i, .unheard)
  | .failed i _ => some (i, .dropped)
  | .listening i _ | .published i => some (i, .heard)
  | _ => none

variable {k : Nat} {r : StartRequest}

/-- What a step of a start does to the links, and what it knows afterwards. -/
def AttendsStart (f : Fleet) (k : Nat) (r : StartRequest) (s : StartStage) : Prop :=
  f.Tends (f.start k r s).1 (fun i => s.grip = some (.carrying i)) ∧
    (f.start k r s).1.Knows (((f.start k r s).2.rest? s).bind StartStage.standing)

theorem attends_start_queued (h : f.Tended) : f.AttendsStart k r .queued := by
  unfold AttendsStart
  simp only [start]
  split
  · exact ⟨.refl h, .none⟩
  · split
    · exact ⟨.refl h, .none⟩
    · exact ⟨(Tends.refl h).leave .., .none⟩
    · exact ⟨(Tends.refl h).publish .., .none⟩

theorem attends_start_unpublished (h : f.Tended)
    (active : ∀ i, (f.slot r.language).active = some i → f.Stands i .heard) :
    f.AttendsStart k r .unpublished := by
  unfold AttendsStart
  simp only [start]
  split
  · exact ⟨.refl h, .none⟩
  · next i there =>
    obtain ⟨l, found, heard⟩ := active i there
    exact ⟨(Tends.refl h).appoint .., .some ⟨l, found, heard.1⟩⟩

theorem attends_start_replacing {s : StopStage} (h : f.Tended) (known : f.Stands i s.standing) :
    f.AttendsStart k r (.replacing i s) := by
  obtain ⟨tends, rest⟩ :=
    tends_stop (fun j => StartStage.grip (.replacing i s) = some (.carrying j)) h known rfl
  unfold AttendsStart
  simp only [start]
  split
  · next stepped =>
    rw [stepped] at tends
    exact ⟨tends, .none⟩
  · next s' stepped =>
    rw [stepped] at tends rest
    exact ⟨tends, .some (rest s' rfl)⟩
  · next stepped =>
    rw [stepped] at tends rest
    exact ⟨tends, .some (rest s rfl)⟩

theorem attends_start_launching (h : f.Tended) : f.AttendsStart k r .launching := by
  unfold AttendsStart
  simp only [start]
  split
  · exact ⟨(Tends.refl h).leave .., .none⟩
  · next i config f' launched =>
    simp only [launch, bind, Except.bind] at launched
    split at launched
    · cases launched
    · split at launched
      · cases launched
      · cases launched
        refine ⟨⟨fun j l there => ?_, ⟨fun j l there => ?_, h.sorted⟩, rfl⟩, .some ?_⟩
        · obtain ⟨bound, -⟩ := List.getElem?_eq_some_iff.mp there
          exact ⟨l, by rw [List.getElem?_append_left bound, there], .refl l, .inr (.refl l)⟩
        · rw [List.getElem?_append] at there
          split at there
          · exact h.links j l there
          · have last := List.mem_of_getElem? there
            rw [List.mem_singleton.mp last]
            exact Link.tended_connect _ _ _ rfl
        · exact ⟨_, List.getElem?_concat_length, rfl, fun closed => (by cases closed)⟩

theorem attends_start_greeting {config : LaunchConfig} {s : GreetStage} (h : f.Tended)
    (known : f.Stands i .unheard) : f.AttendsStart k r (.greeting i config s) := by
  obtain ⟨l, there, unheard⟩ := known
  have goes (l : Link) : l.Goes (l.onClient fun c => c.greet f.now s).1 :=
    .of_client (Link.continues_greet f.now l s).client (.of_greet f.now l.client s)
  have tends : f.Tends
      (f.onClient i (fun c => c.greet f.now s) (.done (.error (.crashed r.language)))).1
      (fun j => StartStage.grip (.greeting i config s) = some (.carrying j)) := .of_goes h goes
  have after : (f.onClient i (fun c => c.greet f.now s) (.done (.error (.crashed r.language)))).1.Stands i
      .unheard := stands_onLink there ((goes l).stands unheard)
  unfold AttendsStart
  simp only [start]
  split
  · next stepped =>
    rw [stepped] at tends after
    obtain ⟨l, there, waiting, -⟩ := after
    exact ⟨tends, .some ⟨l, there, waiting⟩⟩
  all_goals
    next stepped =>
    rw [stepped] at tends after
    exact ⟨tends, .some after⟩

theorem attends_start_failed {e : Error} (h : f.Tended) (known : f.Stands i .dropped) :
    f.AttendsStart k r (.failed i e) := by
  obtain ⟨l, there, waiting⟩ := known
  have tends : f.Tends (f.onLink i (fun l => (l.terminate, ())) ()).1
      (fun j => StartStage.grip (.failed i e) = some (.carrying j)) := by
    have onward : l.Onward l.terminate :=
      ⟨l.continues_terminate, fun stopped => by cases stopped.symm.trans waiting⟩
    exact .of_onLink h there onward (.inl rfl) (Link.terminate_dropped waiting (h.links i l there))
  exact ⟨tends.leave .., .none⟩

/-- Nobody else has begun to listen. -/
theorem attends_start_greeted {config : LaunchConfig} (h : f.Tended) (known : f.Stands i .unheard) :
    f.AttendsStart k r (.greeted i config) := by
  obtain ⟨l, there, unheard⟩ := known
  obtain ⟨first, heard, tended⟩ :=
    Link.startListening_unheard unheard (h.links i l there) config.settings
  have tends : f.Tends (f.onLink i (fun l => (l.startListening config.settings).swap) false).1
      (fun j => StartStage.grip (.greeted i config) = some (.carrying j)) := by
    have onward : l.Onward (l.startListening config.settings).2 :=
      ⟨(l.stirs_startListening _).continues, fun stopped => by cases stopped.symm.trans unheard.1⟩
    exact .of_onLink h there onward (.inl rfl) tended
  have after : (f.onLink i (fun l => (l.startListening config.settings).swap) false).1.Stands i .heard :=
    stands_onLink there heard
  have answer : (f.onLink i (fun l => (l.startListening config.settings).swap) false).2 = true := by
    rw [onLink_some there]
    exact first
  unfold AttendsStart
  simp only [start]
  split
  · next stepped =>
    rw [stepped] at tends after
    exact ⟨tends, .some after⟩
  · next stepped =>
    rw [stepped] at answer
    cases answer

theorem attends_start (k : Nat) (r : StartRequest) {s : StartStage} (h : f.Tended)
    (known : f.Knows s.standing)
    (active : ∀ i, (f.slot r.language).active = some i → f.Stands i .heard) : f.AttendsStart k r s := by
  cases s with
  | fresh => exact ⟨(Tends.refl h).change .., .none⟩
  | found => exact ⟨(Tends.refl h).join .., .none⟩
  | queued => exact attends_start_queued h
  | unpublished => exact attends_start_unpublished h active
  | replacing i s => exact attends_start_replacing h (known i _ rfl)
  | launching => exact attends_start_launching h
  | greeting i config s => exact attends_start_greeting h (known i _ rfl)
  | failed i e => exact attends_start_failed h (known i _ rfl)
  | greeted i config => exact attends_start_greeted h (known i _ rfl)
  | listening i config => exact ⟨(Tends.refl h).publish .., .some (known i _ rfl)⟩
  | published i => exact ⟨((Tends.refl h).appoint ..).leave .., .none⟩

/-! Stopping. -/

def EvictStage.standing : EvictStage → Option (Nat × Link.Standing)
  | .taken i => some (i, .leaving)
  | .ending i s => some (i, s.standing)
  | _ => none

theorem attends_evict (k : Nat) (language : String) {s : EvictStage} (h : f.Tended)
    (known : f.Knows s.standing) (active : ∀ i, (f.slot language).active = some i → f.Stands i .heard) :
    f.Tends (f.evict k language s).1 (fun i => s.grip = some (.carrying i)) ∧
      (f.evict k language s).1.Knows (((f.evict k language s).2.rest? s).bind EvictStage.standing) := by
  cases s with
  | found => exact ⟨(Tends.refl h).join .., .none⟩
  | queued =>
    simp only [evict]
    split
    · exact ⟨.refl h, .none⟩
    · split
      · exact ⟨(Tends.refl h).leave .., .none⟩
      · next i there =>
        obtain ⟨l, found, heard⟩ := active i there
        exact ⟨(Tends.refl h).appoint .., .some ⟨l, found, heard.1⟩⟩
  | taken i => exact ⟨(Tends.refl h).publish .., .some (known i _ rfl)⟩
  | ending i s =>
    obtain ⟨tends, rest⟩ :=
      tends_stop (fun j => EvictStage.grip (.ending i s) = some (.carrying j)) h (known i _ rfl) rfl
    simp only [evict]
    split
    · next stepped =>
      rw [stepped] at tends
      exact ⟨tends.leave .., .none⟩
    · next s' stepped =>
      rw [stepped] at tends rest
      exact ⟨tends, .some (rest s' rfl)⟩
    · next stepped =>
      rw [stepped] at tends rest
      exact ⟨tends, .some (rest s rfl)⟩

end Fleet

end LanguageHost
