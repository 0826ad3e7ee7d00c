import LanguageHost.Proofs.Protocol.Chunks
import LanguageHost.Proofs.Session.Listening

/-!
How a link stands: whether its server's output has come to an end, and how far the listening has come. What
happens on a link besides starting and stopping neither begins the listening nor cancels it, and closes the
connection only at the end of the output.
-/
namespace LanguageHost

/-- A decoder stays in front of a bad header. -/
theorem Decoder.next_at_fault {d rest : Decoder} {e : FrameError} (h : d.next = .fault e rest) :
    rest.next = .fault e rest := by
  fun_induction next d with
  | case1 d e' bad =>
    cases h
    exact next_fault bad
  | case2 => cases h
  | case3 => cases h
  | case4 d d' _ body rest' _ _ _ ih => exact ih h

namespace Client

/-- The connection is as it was. -/
structure KeepsConnection (c c' : Client) : Prop where
  closed : c'.isClosed = c.isClosed
  reading : c'.isReading = c.isReading

namespace KeepsConnection

theorem refl (c : Client) : c.KeepsConnection c := ⟨rfl, rfl⟩

theorem trans {a b c : Client} (h : a.KeepsConnection b) (h' : b.KeepsConnection c) :
    a.KeepsConnection c :=
  ⟨h'.closed.trans h.closed, h'.reading.trans h.reading⟩

theorem of_enqueue {c c' : Client} {o : Outbound} (h : c.enqueue o = .ok c') : c.KeepsConnection c' := by
  obtain ⟨-, rfl⟩ := enqueue_ok h
  exact ⟨rfl, rfl⟩

theorem of_exchange (q : Query) (now : Nat) (c : Client) (s : AskStage) :
    c.KeepsConnection (c.exchange q now s).1 := by
  have asked := exchange_asked q now c s
  generalize (c.exchange q now s).1 = c' at asked ⊢
  generalize (c.exchange q now s).2 = turn at asked
  cases asked with
  | _ => exact ⟨rfl, rfl⟩

theorem of_lookUp (q : CachedQuery) (now : Nat) (c : Client) (s : LookStage) :
    c.KeepsConnection (c.lookUp q now s).1 := by
  cases s with
  | fresh =>
    simp only [lookUp]
    split
    · exact ⟨rfl, rfl⟩
    · exact ⟨rfl, rfl⟩
  | asking s =>
    have asked : c.KeepsConnection (c.ask q.query now s).1 := of_exchange q.query now c s
    simp only [lookUp]
    split
    · next stepped =>
      rw [stepped] at asked
      exact ⟨asked.closed, asked.reading⟩
    · next stepped =>
      rw [stepped] at asked
      exact asked

theorem of_greet (now : Nat) (c : Client) (s : GreetStage) : c.KeepsConnection (c.greet now s).1 := by
  cases s with
  | fresh =>
    simp only [greet]
    split
    · exact .refl c
    · split
      · exact .refl c
      · split
        · exact .refl c
        · exact ⟨rfl, rfl⟩
  | asking q s =>
    have asked : c.KeepsConnection (c.ask q now s).1 := of_exchange q now c s
    simp only [greet]
    split
    · next stepped =>
      rw [stepped] at asked
      exact ⟨asked.closed, asked.reading⟩
    · next stepped =>
      rw [stepped] at asked
      split
      · exact ⟨asked.closed, asked.reading⟩
      · next told =>
        have told := asked.trans (of_enqueue told)
        exact ⟨told.closed, told.reading⟩
    · next stepped =>
      rw [stepped] at asked
      exact asked

theorem of_accept (c : Client) (r : Response) : c.KeepsConnection (c.accept r) := by
  unfold accept
  split
  · exact ⟨rfl, rfl⟩
  · exact .refl c

theorem of_openDocument {c c' : Client} {d : Document} {change : DocumentChange}
    (h : c.openDocument d = .ok (change, c')) : c.KeepsConnection c' := by
  simp only [openDocument, bind, Except.bind] at h
  split at h
  · cases h
    exact .refl c
  · split at h
    · cases h
    · next told =>
      cases h
      have told := of_enqueue told
      exact ⟨told.closed, told.reading⟩

theorem of_closeDocument {c c' : Client} {uri : String} {change : DocumentChange}
    (h : c.closeDocument uri = .ok (change, c')) : c.KeepsConnection c' := by
  simp only [closeDocument, bind, Except.bind] at h
  split at h
  · split at h
    · cases h
    · next told =>
      cases h
      have told := of_enqueue told
      exact ⟨told.closed, told.reading⟩
  · cases h
    exact .refl c

end KeepsConnection

end Client

/-! The listener. -/

namespace Listener

theorem keeps_answer (settings : Option Json) (c : Client) (m : ServerMethod) (params : Json) :
    c.KeepsConnection (answer settings c m params).2.1 := by
  cases m with
  | _ => exact ⟨rfl, rfl⟩

theorem keeps_react (settings : Option Json) (c : Client) (m : Message) :
    c.KeepsConnection (react settings c m).client := by
  cases m with
  | request r =>
    simp only [react, onRequest]
    split
    · exact .refl c
    · exact .refl c
    · exact keeps_answer ..
  | notification n =>
    simp only [react, onNotification]
    split
    · exact .refl c
    · exact ⟨rfl, rfl⟩
    · exact .refl c
    · exact .refl c
  | response r => exact .refl c

theorem keeps_dispatch (settings : Option Json) (c : Client) (m : Message) :
    c.KeepsConnection (dispatch settings c m).1 := by
  have reacted := keeps_react settings c m
  simp only [dispatch]
  split
  · exact reacted
  · split
    · next told => exact reacted.trans (.of_enqueue told)
    · exact reacted

/-- No message makes the listener report an exit. -/
theorem exited_notMem_answer (settings : Option Json) (c : Client) (m : ServerMethod) (params : Json) :
    .exited ∉ (answer settings c m params).2.2 := by
  cases m with
  | _ => simp [answer]

theorem exited_notMem_react (settings : Option Json) (c : Client) (m : Message) :
    .exited ∉ (react settings c m).reports := by
  cases m with
  | request r =>
    simp only [react, onRequest]
    split
    · exact List.not_mem_nil
    · exact List.not_mem_nil
    · exact exited_notMem_answer settings c _ _
  | notification n =>
    simp only [react, onNotification]
    split
    · simp
    · simp
    · simp
    · exact List.not_mem_nil
  | response r => exact List.not_mem_nil

theorem exited_notMem_dispatch (settings : Option Json) (c : Client) (m : Message) :
    .exited ∉ (dispatch settings c m).2 := by
  have reacted := exited_notMem_react settings c m
  simp only [dispatch]
  split
  · exact reacted
  · split
    · exact reacted
    · exact reacted

end Listener

namespace Link

/-- The server's output has come to its end: nothing is read any more, because the server has ended or because
what it sent cannot be read on. -/
def IsSpent (l : Link) : Prop :=
  l.client.isReading = false ∧ (l.server.isOpen = false ∨ ∃ e, l.decoder.next = .fault e l.decoder)

/-- A later link; whoever has stopped listening does not begin again. -/
structure Onward (l l' : Link) : Prop where
  continues : l.Continues l'
  stopped : l.listening = .stopped → l'.listening = .stopped

namespace Onward

theorem refl (l : Link) : l.Onward l := ⟨.refl l, id⟩

theorem trans {a b c : Link} (h : a.Onward b) (h' : b.Onward c) : a.Onward c :=
  ⟨h.continues.trans h'.continues, fun stopped => h'.stopped (h.stopped stopped)⟩

end Onward

/-- A link goes on: the listening is neither begun nor cancelled, and only the end of the output closes the
connection. -/
structure Goes (l l' : Link) : Prop where
  onward : l.Onward l'
  cancelled : l'.isCancelled = l.isCancelled
  waiting : l'.listening = .waiting ↔ l.listening = .waiting
  closes : l'.client.isClosed = true → l.client.isClosed = true ∨ l'.IsSpent
  drains : l'.client.isReading = false → l.client.isReading = false ∨ l'.client.isClosed = true
  spent : l.IsSpent → l'.IsSpent

variable {l l' : Link}

theorem Goes.refl (l : Link) : l.Goes l :=
  ⟨.refl l, rfl, .rfl, .inl, .inl, id⟩

/-- A step that leaves the connection alone, the listening, and what is still to be read. -/
theorem Goes.of_kept (continues : l.Continues l') (cancelled : l'.isCancelled = l.isCancelled)
    (listening : l'.listening = l.listening) (connection : l.client.KeepsConnection l'.client)
    (spent : l.IsSpent → l'.IsSpent) : l.Goes l' := by
  constructor
  · exact ⟨continues, fun stopped => listening.trans stopped⟩
  · exact cancelled
  · rw [listening]
  · rw [connection.closed]
    exact .inl
  · rw [connection.reading]
    exact .inl
  · exact spent

theorem Goes.of_client {c : Client} (continues : l.client.Continues c)
    (connection : l.client.KeepsConnection c) : l.Goes { l with client := c } := by
  refine .of_kept (.of_client continues) rfl rfl connection fun spent => ?_
  exact ⟨connection.reading.trans spent.1, spent.2⟩

/-! The hands. -/

theorem goes_write (h : l.Writes l') : l.Goes l' := by
  have continues := (stirs_write h).continues
  cases h with
  | stops => exact .of_kept continues rfl rfl ⟨rfl, rfl⟩ id
  | sends => exact .of_kept continues rfl rfl ⟨rfl, rfl⟩ id

theorem goes_serve (alive : l.server.isOpen = true) (h : l.Serves l') : l.Goes l' := by
  have continues := (stirs_serve h).continues
  cases h with
  | takes m rest front =>
    refine .of_kept continues rfl rfl ⟨rfl, rfl⟩ fun spent => ⟨spent.1, .inr ?_⟩
    exact spent.2.resolve_left (by simp [alive])
  | finishes empty shut ended =>
    exact .of_kept continues rfl rfl ⟨rfl, rfl⟩ fun spent => ⟨spent.1, .inl ended⟩

/-- The reader closes the connection when it has come to the end of the output. -/
theorem goes_read (reading : l.client.isReading = true) (h : l.Reads l') : l.Goes l' := by
  have continues := (stirs_read reading h).continues
  have unspent : ¬ l.IsSpent := fun spent => by simp [IsSpent, reading] at spent
  cases h with
  | ends d cause =>
    refine ⟨⟨continues, id⟩, rfl, .rfl, fun _ => ?_, fun _ => .inr rfl, (absurd · unspent)⟩
    rcases cause with closed | ⟨e, fault⟩ | ⟨-, -, ended⟩
    · exact .inl closed
    · exact .inr ⟨rfl, .inr ⟨e, Decoder.next_at_fault fault⟩⟩
    · exact .inr ⟨rfl, .inl ended⟩
  | routes m d connected next =>
    obtain ⟨r, rfl, accepted⟩ | ⟨-, ⟨-, left⟩ | ⟨-, entered⟩⟩ := route_cases { l with decoder := d } m
    · rw [accepted] at continues ⊢
      exact .of_kept continues rfl rfl (.of_accept l.client r) (absurd · unspent)
    · rw [left] at continues ⊢
      exact .of_kept continues rfl rfl (.refl _) (absurd · unspent)
    · rw [entered] at continues ⊢
      exact .of_kept continues rfl rfl (.refl _) (absurd · unspent)
  | takes d connected next => exact .of_kept continues rfl rfl (.refl _) (absurd · unspent)

theorem goes_listen {reports : List Report} (h : l.Listens l' reports) : l.Goes l' := by
  have continues := (stirs_listen h).continues
  cases h with
  | hears settings m rest running front =>
    have connection := Listener.keeps_dispatch settings l.client m
    exact .of_kept continues rfl rfl connection fun spent => ⟨connection.reading.trans spent.1, spent.2⟩
  | ends settings running empty silent =>
    exact ⟨⟨continues, fun _ => rfl⟩, rfl, by simp [running], .inl, .inl, id⟩

theorem goes_step {hand : Hand} {reports : List Report} (h : l.step hand = some (l', reports)) :
    l.Goes l' := by
  cases step_cases h with
  | writes _ moved => exact goes_write moved
  | serves alive moved => exact goes_serve alive moved
  | reads reading moved => exact goes_read reading moved
  | listens moved => exact goes_listen moved

/-! Acts. -/

namespace Act

/-- Neither the listening is begun or ended by it, nor the connection dropped. -/
def isOrdinary : Act → Bool
  | .startListening _ | .stopListening | .terminate => false
  | _ => true

end Act

theorem goes_settled {r : Except Error Client} (h : ∀ c, r = .ok c → l.client.Continues c)
    (kept : ∀ c, r = .ok c → l.client.KeepsConnection c) : l.Goes (l.settled r) := by
  cases r with
  | ok c => exact .of_client (h c rfl) (kept c rfl)
  | error e => exact .refl l

theorem goes_act (l : Link) {a : Act} (ordinary : a.isOrdinary = true) : l.Goes (l.act a).1 := by
  have continues := (l.stirs_act a).continues
  cases a with
  | hand h =>
    simp only [act]
    cases moved : l.step h with
    | none => exact .refl l
    | some moved' => exact goes_step moved
  | emit bs =>
    simp only [act, emit]
    split
    · exact .of_kept ⟨.refl _, id⟩ rfl rfl (.refl _) id
    · exact .refl l
  | serverEnds => exact .of_kept continues rfl rfl (.refl _) fun spent => ⟨spent.1, .inl rfl⟩
  | openDocument d =>
    simp only [act] at continues ⊢
    cases result : l.client.openDocument d with
    | error e => exact .refl l
    | ok opened =>
      rw [result] at continues
      exact .of_client continues.client (.of_openDocument result)
  | closeDocument uri =>
    simp only [act] at continues ⊢
    cases result : l.client.closeDocument uri with
    | error e => exact .refl l
    | ok closed =>
      rw [result] at continues
      exact .of_client continues.client (.of_closeDocument result)
  | notify method params =>
    exact goes_settled (fun c told => (Client.aside_of_enqueue told).toContinues) fun c told => .of_enqueue told
  | respond r =>
    exact goes_settled (fun c told => (Client.aside_of_enqueue told).toContinues) fun c told => .of_enqueue told
  | startListening settings => cases ordinary
  | stopListening => cases ordinary
  | terminate => cases ordinary

/-- An exit is reported by itself, by a listener that goes on and finds that nothing is read any more; it is
the last thing that it does. -/
theorem act_exited {a : Act} (h : .exited ∈ (l.act a).2) :
    (l.act a).2 = [.exited] ∧ (∃ settings, l.listening = .running settings) ∧
      l.client.isReading = false ∧ (l.act a).1.listening = .stopped := by
  cases a with
  | hand hand =>
    simp only [act] at h ⊢
    cases moved : l.step hand with
    | none =>
      rw [moved] at h
      cases h
    | some moved' =>
      obtain ⟨l', reports⟩ := moved'
      rw [moved] at h
      change .exited ∈ reports at h
      cases step_cases moved with
      | writes | serves | reads => cases h
      | listens heard =>
        cases heard with
        | hears settings m rest running front => exact absurd h (Listener.exited_notMem_dispatch settings l.client m)
        | ends settings running empty silent => exact ⟨rfl, ⟨settings, running⟩, silent, rfl⟩
  | _ => cases h

/-! How far the listening has come. -/

/-- What a call knows of the link that it works on. -/
inductive Standing where
  /-- nobody listens yet -/
  | unheard
  /-- nobody listens, nor ever will -/
  | dropped
  /-- the listening has begun and is not cancelled -/
  | heard
  /-- the listening is to be cancelled -/
  | leaving
  | silenced

def Stands (l : Link) : Standing → Prop
  | .unheard => l.listening = .waiting ∧ (l.client.isClosed = true → l.IsSpent)
  | .dropped => l.listening = .waiting
  | .heard => l.listening ≠ .waiting ∧ l.isCancelled = false
  | .leaving => l.listening ≠ .waiting
  | .silenced => l.isCancelled = true

theorem Goes.stands (h : l.Goes l') {st : Standing} (before : l.Stands st) : l'.Stands st := by
  cases st with
  | unheard =>
    obtain ⟨waiting, closed⟩ := before
    refine ⟨h.waiting.mpr waiting, fun closed' => ?_⟩
    rcases h.closes closed' with already | spent
    · exact h.spent (closed already)
    · exact spent
  | dropped => exact h.waiting.mpr before
  | heard => exact ⟨before.1 ∘ h.waiting.mp, h.cancelled.trans before.2⟩
  | leaving => exact before ∘ h.waiting.mp
  | silenced => exact h.cancelled.trans before

/-- What is known of every link: a listener that is cancelled has stopped, a reader that has stopped has closed
the connection, and as long as the listener goes on nothing but the end of the output closes it. -/
structure Tended (l : Link) : Prop where
  silent : l.isCancelled = true → l.listening = .stopped
  drained : l.client.isReading = false → l.client.isClosed = true
  crashed : l.Stands .heard → l.client.isClosed = true → l.IsSpent

theorem Goes.tended (h : l.Goes l') (before : l.Tended) : l'.Tended := by
  constructor
  · intro cancelled
    exact h.onward.stopped (before.silent (h.cancelled.symm.trans cancelled))
  · intro unread
    rcases h.drains unread with already | closed
    · exact h.onward.continues.client.closed (before.drained already)
    · exact closed
  · intro heard closed'
    have heard' : l.Stands .heard := ⟨heard.1 ∘ h.waiting.mpr, h.cancelled.symm.trans heard.2⟩
    rcases h.closes closed' with already | spent
    · exact h.spent (before.crashed heard' already)
    · exact spent

theorem tended_connect (c : Client) (server : Peer) (process : Option Invocation)
    (reading : c.isReading = true) : (connect c server process).Tended := by
  constructor
  · nofun
  · intro unread
    exact absurd (unread.symm.trans reading) Bool.false_ne_true
  · intro heard
    exact absurd rfl heard.1

/-- Whoever is the first to listen finds a link whose listener was never cancelled. -/
theorem startListening_unheard (before : l.Stands .unheard) (tended : l.Tended) (settings : Option Json) :
    (l.startListening settings).1 = true ∧ (l.startListening settings).2.Stands .heard ∧
      (l.startListening settings).2.Tended := by
  obtain ⟨waiting, closed⟩ := before
  have uncancelled : l.isCancelled = false := by
    cases cancelled : l.isCancelled with
    | false => rfl
    | true => cases waiting.symm.trans (tended.silent cancelled)
  simp only [startListening, waiting]
  refine ⟨trivial, ⟨fun same => (by cases same), uncancelled⟩, ?_, tended.drained, fun _ => closed⟩
  intro cancelled
  cases uncancelled.symm.trans cancelled

theorem stopListening_leaving (before : l.Stands .leaving) (tended : l.Tended) :
    l.stopListening.Stands .silenced ∧ l.stopListening.Tended ∧ l.stopListening.listening = .stopped := by
  unfold stopListening
  split
  · next waiting => exact absurd waiting before
  · refine ⟨rfl, ⟨fun _ => rfl, tended.drained, ?_⟩, rfl⟩
    intro heard
    cases heard.2

theorem terminate_dropped (before : l.Stands .dropped) (tended : l.Tended) : l.terminate.Tended := by
  obtain ⟨listening, cancelled, closed⟩ : l.terminate.listening = l.listening ∧
      l.terminate.isCancelled = l.isCancelled ∧ l.terminate.client.isClosed = true := by
    unfold terminate
    dsimp only
    split
    · exact ⟨rfl, rfl, rfl⟩
    · exact ⟨rfl, rfl, rfl⟩
  constructor
  · intro silenced
    have stopped : l.listening = .stopped := tended.silent (cancelled.symm.trans silenced)
    cases stopped.symm.trans before
  · exact fun _ => closed
  · intro heard
    exact absurd (listening.trans before) heard.1

end Link

end LanguageHost
