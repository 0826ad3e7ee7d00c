import LanguageHost.Proofs.Fleet.Attended
import LanguageHost.Proofs.Fleet.Traffic
import LanguageHost.Proofs.Session.Introduction

/-!
How sessions begin and how they end. Where the first request of a session is answered, the start that asked goes on
with a server that knows it; and an exit that is reported is that of a server which nobody has asked to end.
-/
namespace LanguageHost

namespace Traffic

/-- A start after the answer to its first request. -/
def greeted (s : Traffic) (k : Nat) (r : StartRequest) (i : Nat) (config : LaunchConfig) (j : Json) :
    Traffic :=
  { s with
    fleet := (s.fleet.onClient i (fun c => (c.greeted j, ())) ()).1
    calls := Function.update s.calls k (some (.start r (.greeted i config))) }

theorem next_greeted {s : Traffic} {k i deadline : Nat} {r : StartRequest} {config : LaunchConfig} {q : Query}
    {id : Int32} {l : Link} {result j : Json}
    (call : s.calls k = some (.start r (.greeting i config (.asking q (.waiting id deadline)))))
    (there : s.fleet.links[i]? = some l)
    (arrived : l.client.arrived = [⟨.number id, some result, none⟩]) (isOpen : l.client.isQueueOpen = true)
    (read : q.result.read? result = some j) : s.next (.turn k) = s.greeted k r i config j := by
  have stepped : (Task.start r (.greeting i config (.asking q (.waiting id deadline)))).step k s.fleet =
      ((s.fleet.onClient i (fun c => (c.greeted j, ())) ()).1, .go (.start r (.greeted i config))) := by
    simp only [Task.step, Fleet.start, Fleet.onClient, Fleet.onLink_some there, Link.onClient,
      Client.greet_answered arrived isOpen read]
    rfl
  simp only [next, call, turned, stepped]
  rfl

end Traffic

end LanguageHost

/-!
The exits that a run reports. An exit is what a listener reports last, when it finds the end of its server's
output and has not been cancelled; whoever asks a server to end has cancelled its listener before.
-/
namespace LanguageHost

/-- The link whose server a call asks to end, or whose end it waits for. -/
def Task.shutsDown? : Task → Option Nat
  | .start _ (.replacing i (.ending _)) => some i
  | .stop _ (.evicting (.ending i (.ending _))) => some i
  | .stopAll (.evicting _ (.ending i (.ending _)) _ _) => some i
  | _ => none

theorem Task.standing_of_shutsDown {t : Task} {i : Nat} (h : t.shutsDown? = some i) :
    t.standing = some (i, .silenced) := by
  unfold shutsDown? at h
  split at h
  · cases h
    rfl
  · cases h
    rfl
  · cases h
    rfl
  · cases h

def Report.isExit : Report → Bool
  | .exited => true
  | _ => false

namespace Traffic

/-- The events that a move publishes, each with the link of its server. -/
def tells (s : Traffic) : Move → List (Nat × LanguageEvent)
  | .act i a =>
    match s.fleet.links[i]? with
    | none => []
    | some l => (l.act a).2.map fun r => (i, ⟨l.client.language, r⟩)
  | _ => []

/-- The events of a run. -/
def told (s : Traffic) : List Move → List (Nat × LanguageEvent)
  | [] => []
  | move :: moves => s.tells move ++ (s.next move).told moves

variable {s : Traffic} {move : Move} {i : Nat}

theorem told_append (s : Traffic) (before after : List Move) :
    s.told (before ++ after) = s.told before ++ (s.run before).told after := by
  induction before generalizing s with
  | nil => rfl
  | cons move before ih => simp [told, run, ih]

theorem run_append (s : Traffic) (before after : List Move) :
    s.run (before ++ after) = (s.run before).run after := List.foldl_append

/-- Where an event comes from. -/
theorem mem_tells {x : Nat × LanguageEvent} (h : x ∈ s.tells move) :
    ∃ a l, move = .act x.1 a ∧ s.fleet.links[x.1]? = some l ∧ x.2.report ∈ (l.act a).2 ∧
      s.tells move = (l.act a).2.map fun r => (x.1, ⟨l.client.language, r⟩) := by
  cases move with
  | act i a =>
    simp only [tells] at h ⊢
    split at h
    · cases h
    · next l there =>
      obtain ⟨r, reported, rfl⟩ := List.mem_map.mp h
      exact ⟨a, l, rfl, there, reported, rfl⟩
  | _ => cases h

theorem links_act (s : Traffic) {l : Link} (a : Link.Act) (there : s.fleet.links[i]? = some l) :
    (s.next (.act i a)).fleet.links[i]? = some (l.act a).1 := by
  simp only [next, Fleet.act, Fleet.onLink_some there]
  exact (Fleet.links_setLink there i).trans (if_pos rfl)

namespace Attended

/-- What is published is what the links report. -/
theorem events_next (h : s.Attended) (move : Move) :
    (s.next move).fleet.events = s.fleet.events ++ (s.tells move).map Prod.snd := by
  cases move with
  | begin t =>
    simp only [Traffic.next]
    split
    · exact (List.append_nil _).symm
    · exact (List.append_nil _).symm
  | turn k =>
    simp only [Traffic.next]
    split
    · exact (List.append_nil _).symm
    · next t there => exact (h.attends there).tends.events.trans (List.append_nil _).symm
  | note k languages =>
    simp only [Traffic.next]
    split
    · split
      · exact (List.append_nil _).symm
      · exact (List.append_nil _).symm
    · exact (List.append_nil _).symm
  | act i a =>
    simp only [Traffic.next, Fleet.act, tells]
    cases there : s.fleet.links[i]? with
    | none => simp [Fleet.onLink, there]
    | some l => simp [Fleet.onLink_some there, Fleet.setLink, Function.comp_def]
  | pass time => exact (List.append_nil _).symm
  | configure config launcher => exact (List.append_nil _).symm

theorem onward_next (h : s.Attended) (ordinary : move.isOrdinary = true) {l : Link}
    (there : s.fleet.links[i]? = some l) :
    ∃ l', (s.next move).fleet.links[i]? = some l' ∧ l.Onward l' := by
  cases move with
  | begin t =>
    simp only [Traffic.next]
    split
    · exact ⟨l, there, .refl l⟩
    · exact ⟨l, there, .refl l⟩
  | turn k =>
    simp only [Traffic.next]
    split
    · exact ⟨l, there, .refl l⟩
    · next t begun =>
      obtain ⟨l', there', onward, -⟩ := (h.attends begun).tends.forward i l there
      exact ⟨l', there', onward⟩
  | note k languages =>
    simp only [Traffic.next]
    split
    · split
      · exact ⟨l, there, .refl l⟩
      · exact ⟨l, there, .refl l⟩
    · exact ⟨l, there, .refl l⟩
  | act j a =>
    obtain ⟨f', tends, links, -⟩ := Fleet.tends_act h.tended j ordinary
    obtain ⟨l', there', onward, -⟩ := tends.forward i l there
    exact ⟨l', (congrArg (·[i]?) links).trans there', onward⟩
  | pass time => exact ⟨l, there, .refl l⟩
  | configure config launcher => exact ⟨l, there, .refl l⟩

variable {moves : List Move}

/-- Once nobody listens to a server, none of its events is published any more. -/
theorem silent_run (h : s.Attended) (sound : s.Sound) (ordinary : ∀ move ∈ moves, move.isOrdinary = true)
    {l : Link} (there : s.fleet.links[i]? = some l) (stopped : l.listening = .stopped) :
    ∀ x ∈ s.told moves, x.1 ≠ i := by
  induction moves generalizing s l with
  | nil => nofun
  | cons move moves ih =>
    intro x told
    have first := ordinary move List.mem_cons_self
    have rest (m : Move) (later : m ∈ moves) := ordinary m (List.mem_cons_of_mem _ later)
    rcases List.mem_append.mp told with now | later
    · rintro rfl
      obtain ⟨a, l', -, there', reported, -⟩ := mem_tells now
      cases there.symm.trans there'
      rw [(Link.silent_act stopped a).2.2.1] at reported
      cases reported
    · obtain ⟨l', there', onward⟩ := h.onward_next first there
      exact ih (h.next sound first) (sound.next move) rest there' (onward.stopped stopped) x later

/-- An exit is published by a listener that has not been cancelled, at the end of its server's output. It is
all that the move publishes, and the listener stops with it. -/
theorem exit_next (h : s.Attended) {x : Nat × LanguageEvent} (told : x ∈ s.tells move)
    (exited : x.2.report = .exited) :
    s.tells move = [x] ∧
      (∃ l, s.fleet.links[x.1]? = some l ∧ l.isCancelled = false ∧ l.IsSpent) ∧
      ∃ l, (s.next move).fleet.links[x.1]? = some l ∧ l.listening = .stopped ∧ l.client.isReading = false := by
  obtain ⟨a, l, rfl, there, reported, same⟩ := mem_tells told
  rw [exited] at reported
  obtain ⟨alone, ⟨settings, running⟩, unread, stopped⟩ := Link.act_exited reported
  have tended := h.tended.links x.1 l there
  have uncancelled : l.isCancelled = false := by
    cases cancelled : l.isCancelled with
    | false => rfl
    | true => cases running.symm.trans (tended.silent cancelled)
  have spent : l.IsSpent := tended.crashed ⟨by simp [running], uncancelled⟩ (tended.drained unread)
  have after := (l.stirs_act a).continues
  have unread' : (l.act a).1.client.isReading = false := by
    cases reading : (l.act a).1.client.isReading with
    | false => rfl
    | true => cases unread.symm.trans (after.client.reading reading)
  refine ⟨?_, ⟨l, there, uncancelled, spent⟩, _, s.links_act a there, stopped, unread'⟩
  rw [alone] at same
  rw [same] at told ⊢
  rw [List.mem_singleton.mp told]
  rfl

/-- After an exit its server is not heard of again. -/
theorem exit_is_last (h : s.Attended) (sound : s.Sound) (ordinary : ∀ move ∈ moves, move.isOrdinary = true) :
    (s.told moves).Pairwise fun x y => x.2.report = .exited → y.1 ≠ x.1 := by
  induction moves generalizing s with
  | nil => exact .nil
  | cons move moves ih =>
    have first := ordinary move List.mem_cons_self
    have rest (m : Move) (later : m ∈ moves) := ordinary m (List.mem_cons_of_mem _ later)
    have next := h.next sound first
    refine List.pairwise_append.mpr ⟨?_, ih next (sound.next move) rest, ?_⟩
    · by_cases some_exits : ∃ x ∈ s.tells move, x.2.report = .exited
      · obtain ⟨x, told, exited⟩ := some_exits
        rw [(h.exit_next told exited).1]
        exact List.pairwise_singleton _ _
      · refine List.pairwise_of_forall_mem_list fun x told y _ exited => ?_
        exact absurd ⟨x, told, exited⟩ some_exits
    · intro x told y later exited
      obtain ⟨-, -, l, there, stopped, -⟩ := h.exit_next told exited
      exact next.silent_run (sound.next move) rest there stopped y later

theorem onward_run (h : s.Attended) (sound : s.Sound) (ordinary : ∀ move ∈ moves, move.isOrdinary = true)
    {l : Link} (there : s.fleet.links[i]? = some l) :
    ∃ l', (s.run moves).fleet.links[i]? = some l' ∧ l.Onward l' := by
  induction moves generalizing s l with
  | nil => exact ⟨l, there, .refl l⟩
  | cons move moves ih =>
    have first := ordinary move List.mem_cons_self
    obtain ⟨l', there', onward⟩ := h.onward_next first there
    obtain ⟨l'', there'', onward'⟩ := ih (h.next sound first) (sound.next move)
      (fun m later => ordinary m (List.mem_cons_of_mem _ later)) there'
    exact ⟨l'', there'', onward.trans onward'⟩

/-- The output of a server that has exited is not read any more. -/
theorem unread_of_exit (h : s.Attended) (sound : s.Sound)
    (ordinary : ∀ move ∈ moves, move.isOrdinary = true) {x : Nat × LanguageEvent} (told : x ∈ s.told moves)
    (exited : x.2.report = .exited) :
    ∃ l, (s.run moves).fleet.links[x.1]? = some l ∧ l.client.isReading = false := by
  induction moves generalizing s with
  | nil => cases told
  | cons move moves ih =>
    have first := ordinary move List.mem_cons_self
    have rest (m : Move) (later : m ∈ moves) := ordinary m (List.mem_cons_of_mem _ later)
    have next := h.next sound first
    rcases List.mem_append.mp told with now | later
    · obtain ⟨-, -, l, there, -, unread⟩ := h.exit_next now exited
      obtain ⟨l', there', onward⟩ := next.onward_run (sound.next move) rest there
      refine ⟨l', there', ?_⟩
      cases reading : l'.client.isReading with
      | false => rfl
      | true => cases unread.symm.trans (onward.continues.client.reading reading)
    · exact ih next (sound.next move) rest later

theorem events_run (h : s.Attended) (sound : s.Sound) (ordinary : ∀ move ∈ moves, move.isOrdinary = true) :
    (s.run moves).fleet.events = s.fleet.events ++ (s.told moves).map Prod.snd := by
  induction moves generalizing s with
  | nil => exact (List.append_nil _).symm
  | cons move moves ih =>
    have first := ordinary move List.mem_cons_self
    refine (ih (h.next sound first) (sound.next move)
      fun m later => ordinary m (List.mem_cons_of_mem _ later)).trans ?_
    rw [h.events_next, told, List.map_append, List.append_assoc]

end Attended

/-- A stop that was asked for is never reported as an exit. However crashes, messages, starts, replacements
and stops are interleaved: the events that are published are those that the links report; after an exit
nothing more is published of its server, so it has no other; an exit is published while the listener is not
cancelled and the server's output has come to its end; once the listener is cancelled nothing is published;
and whoever asks a server to end has cancelled its listener, so that a server whose output is still read then
has no exit at all, whatever it does to its output later. -/
theorem stop_is_no_exit (config : String → Option LaunchConfig) (timeout : Nat) (launcher : Launcher)
    (moves : List Move) (ordinary : ∀ move ∈ moves, move.isOrdinary = true) :
    let s := start config timeout launcher
    (s.run moves).fleet.events = (s.told moves).map Prod.snd ∧
      ((s.told moves).Pairwise fun x y => x.2.report = .exited → y.1 ≠ x.1) ∧
      ∀ before after, moves = before ++ after →
        let t := s.run before
        (∀ move later, after = move :: later → ∀ x ∈ t.tells move, x.2.report = .exited →
          ∃ l, t.fleet.links[x.1]? = some l ∧ l.isCancelled = false ∧ l.IsSpent) ∧
        (∀ i l, t.fleet.links[i]? = some l → l.isCancelled = true → ∀ x ∈ t.told after, x.1 ≠ i) ∧
        ∀ k call i, t.calls k = some call → call.shutsDown? = some i →
          ∃ l, t.fleet.links[i]? = some l ∧ l.isCancelled = true ∧
            (l.client.isReading = true → ∀ x ∈ s.told moves, x.1 = i → x.2.report ≠ .exited) := by
  intro s
  have begun : s.Attended := attended_start config timeout launcher
  have sound : s.Sound := sound_start config timeout launcher
  refine ⟨begun.events_run sound ordinary, begun.exit_is_last sound ordinary, ?_⟩
  rintro before after rfl t
  have first (m : Move) (there : m ∈ before) := ordinary m (List.mem_append_left _ there)
  have rest (m : Move) (there : m ∈ after) := ordinary m (List.mem_append_right _ there)
  have now : t.Attended := begun.run sound first
  have sound' : t.Sound := sound.run before
  have silent (i : Nat) (l : Link) (there : t.fleet.links[i]? = some l) (cancelled : l.isCancelled = true) :
      ∀ x ∈ t.told after, x.1 ≠ i :=
    now.silent_run sound' rest there ((now.tended.links i l there).silent cancelled)
  refine ⟨?_, silent, ?_⟩
  · rintro move later rfl x told exited
    exact (now.exit_next told exited).2.1
  · intro k call i there ends
    obtain ⟨l, found, cancelled⟩ := now.knows k call there i .silenced (Task.standing_of_shutsDown ends)
    refine ⟨l, found, cancelled, fun reading x told own exited => ?_⟩
    subst own
    rw [told_append] at told
    rcases List.mem_append.mp told with earlier | later
    · obtain ⟨l', found', unread⟩ := begun.unread_of_exit sound first earlier exited
      cases found.symm.trans found'
      cases reading.symm.trans unread
    · exact silent x.1 l found cancelled x later rfl

def someStart : StartRequest := ⟨"rust", ⟨"/"⟩, [], .reject⟩

def someLaunch : LaunchConfig := ⟨⟨⟨"fake"⟩, [], []⟩, true, none, none⟩

/-- A host whose servers can do nothing in particular. -/
def plainHost : Traffic :=
  start (fun _ => some someLaunch) 9 fun _ _ _ =>
    .ok ⟨.ofScript ⟨[("initialize", [{ Cue.usual with answer := some (.result Shape.silent) }])], false⟩, none⟩

/-- A start whose first request has been answered. -/
def asking : List Move :=
  [.begin (.start someStart .fresh)] ++ List.replicate 9 (.turn 0) ++
    [.act 0 (.hand .writer), .act 0 (.hand .server), .act 0 (.hand .reader), .act 0 (.hand .reader)]

/-- The start goes on to its end. -/
def started : List Move := asking ++ List.replicate 4 (.turn 0)

/-- The server's output ends, and reader and listener notice. -/
def endOfOutput : List Move := [.act 0 .serverEnds, .act 0 (.hand .reader), .act 0 (.hand .listener)]

/-- A stop has come as far as asking the server to end. -/
def stopping : List Move := [.begin (.stop "rust" .fresh)] ++ List.replicate 5 (.turn 1)

theorem run_asking : plainHost.run (asking ++ [.turn 0]) =
    (plainHost.run asking).greeted 0 someStart 0 someLaunch Shape.silent := by
  have call : ∃ params, (plainHost.run asking).calls 0 = some (.start someStart (.greeting 0 someLaunch
      (.asking ⟨"initialize", params, .initializeResult⟩ (.waiting 1 9)))) := ⟨_, rfl⟩
  obtain ⟨params, call⟩ := call
  have read : ((plainHost.run asking).fleet.links[0]?.map fun l => (l.client.isQueueOpen,
      l.client.arrived.map fun r => (r.id, r.result.map Shape.isSilent, r.error.isNone))) =
        some (true, [(.number 1, some true, true)]) := by
    decide +kernel
  obtain ⟨l, there, found⟩ := Option.map_eq_some_iff.mp read
  obtain ⟨isOpen, responses⟩ := Prod.mk.inj found
  rw [run_append]
  exact next_greeted call there (Client.arrived_silent responses) isOpen Shape.read_silent

/-- The host once the server has greeted. -/
def greetedHost : Traffic := (plainHost.run asking).greeted 0 someStart 0 someLaunch Shape.silent

theorem run_started (moves : List Move) :
    plainHost.run (started ++ moves) = greetedHost.run (List.replicate 3 (.turn 0) ++ moves) := by
  have split : started ++ moves = (asking ++ [.turn 0]) ++ (List.replicate 3 (.turn 0) ++ moves) := rfl
  rw [split, run_append, run_asking]
  rfl

/-- A server that ends by itself exits; one that ends because it is asked to does not. -/
theorem crash_exits_and_stopped_does_not :
    ((plainHost.told (started ++ endOfOutput)).map fun x => x.2.report.isExit) = [true] ∧
      ∀ x ∈ plainHost.told (started ++ stopping ++ endOfOutput), x.1 = 0 → x.2.report ≠ .exited := by
  have crashes := stop_is_no_exit plainHost.fleet.config plainHost.fleet.timeout plainHost.fleet.launcher
    (started ++ endOfOutput) (by decide +kernel)
  have stops := stop_is_no_exit plainHost.fleet.config plainHost.fleet.timeout plainHost.fleet.launcher
    (started ++ stopping ++ endOfOutput) (by decide +kernel)
  constructor
  · have published : ((plainHost.run (started ++ endOfOutput)).fleet.events.map fun e => e.report.isExit) =
        [true] := by
      rw [run_started]
      decide +kernel
    have same : (plainHost.run (started ++ endOfOutput)).fleet.events =
        (plainHost.told (started ++ endOfOutput)).map Prod.snd := crashes.1
    rw [same, List.map_map] at published
    exact published
  · have asks : ((plainHost.run (started ++ stopping)).calls 1).bind Task.shutsDown? = some 0 ∧
        ((plainHost.run (started ++ stopping)).fleet.links[0]?.map fun l => l.client.isReading) =
          some true := by
      rw [run_started]
      decide +kernel
    obtain ⟨call, there, ends⟩ := Option.bind_eq_some_iff.mp asks.1
    obtain ⟨l, found, reading⟩ := Option.map_eq_some_iff.mp asks.2
    obtain ⟨-, -, ended⟩ := stops.2.2 (started ++ stopping) endOfOutput rfl
    obtain ⟨l', found', -, quiet⟩ := ended 1 call 0 there ends
    cases found.symm.trans found'
    exact quiet reading

end Traffic

end LanguageHost
