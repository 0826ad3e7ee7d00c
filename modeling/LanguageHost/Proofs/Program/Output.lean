import LanguageHost.Proofs.Program.Reading

/-! The output of a command as a whole. What the machine reports of a command is what one of its readings
gives, and every reading that comes to its end gives the two streams whole, if and only if all that they
send is text. -/
namespace LanguageHost
open Channel (cutLine? lineOf? rows readable Renders)

namespace Channel

theorem drain_of_uncut {bs : Octets} (uncut : cutLine? bs = none) : drain bs = ([], ⟨bs, true⟩) := by
  rw [drain]
  split
  · rfl
  · next cut => cases cut.symm.trans uncut

theorem drain_of_garbled {bs front rest : Octets} (cut : cutLine? bs = some (front, rest))
    (garbled : lineOf? front = none) : drain bs = ([], ⟨[], false⟩) := by
  rw [drain]
  split
  · next uncut => cases uncut.symm.trans cut
  · next front' rest' same =>
      cases same.symm.trans cut
      rw [garbled]

theorem drain_of_line {bs front rest : Octets} {line : String} (cut : cutLine? bs = some (front, rest))
    (text : lineOf? front = some line) : drain bs = (line :: (drain rest).1, (drain rest).2) := by
  rw [drain]
  split
  · next uncut => cases uncut.symm.trans cut
  · next front' rest' same =>
      cases same.symm.trans cut
      rw [text]

/-- The channel has no whole line left in it. -/
def Settled (ch : Channel) : Prop := cutLine? ch.pending = none

theorem settled_drain (bs : Octets) : (drain bs).2.Settled := by
  cases cut : cutLine? bs with
  | none =>
      rw [drain_of_uncut cut]
      exact cut
  | some parts =>
      obtain ⟨front, rest⟩ := parts
      have shorter := cutLine?_shorter cut
      cases text : lineOf? front with
      | none =>
          rw [drain_of_garbled cut text]
          rfl
      | some line =>
          rw [drain_of_line cut text]
          exact settled_drain rest
termination_by bs.length

theorem Settled.push {ch : Channel} (settled : ch.Settled) (bs : Octets) : (ch.push bs).2.Settled := by
  unfold Channel.push
  split
  · exact settled_drain _
  · exact settled

end Channel

open Channel (Settled)

namespace Stream

/-- The stream of a channel that is still fed. -/
def ofChannel (ch : Channel) : Stream := ⟨ch.pending, false, ch.isOpen⟩

theorem receive_nil (s : Stream) : s.receive [] = s := by
  unfold receive
  rw [List.append_nil]
  split <;> rfl

end Stream

namespace Reading
variable {c : Command} {p : Performance} {s : Reading} {side : Side}

theorem next_read (runs : s.outcome = none) {line : Option String} {stream : Stream}
    (found : (s.streams side).next? = some (line, stream)) :
    s.next (.read side) = { s.put side stream with lines := s.lines ++ line.toList } := by
  simp only [next, runs, found]

theorem put_put (s : Reading) (side : Side) (first second : Stream) :
    (s.put side first).put side second = s.put side second := by
  simp [put]

/-- All whole lines of a stream can be read. -/
theorem reads_drain {s : Reading} (side : Side) (bs : Octets) (runs : s.outcome = none)
    (waits : s.streams side = ⟨bs, false, true⟩) : ∃ moves, s.run moves =
      { s.put side (.ofChannel (Channel.drain bs).2) with lines := s.lines ++ (Channel.drain bs).1 } := by
  have found : ∀ front rest, cutLine? bs = some (front, rest) →
      (s.streams side).next? = some ((s.streams side).advance (lineOf? front) rest) := by
    intro front rest cut
    simp only [waits, Stream.next?, cut, if_true]
  cases cut : cutLine? bs with
  | none =>
      rw [Channel.drain_of_uncut cut]
      refine ⟨[], ?_⟩
      have same : Stream.ofChannel ⟨bs, true⟩ = s.streams side := waits.symm
      rw [same, put_self, List.append_nil]
      rfl
  | some parts =>
      obtain ⟨front, rest⟩ := parts
      have shorter := Channel.cutLine?_shorter cut
      have finds := found front rest cut
      cases text : lineOf? front with
      | none =>
          rw [Channel.drain_of_garbled cut text]
          rw [text] at finds
          refine ⟨[.read side], (next_read runs finds).trans ?_⟩
          rw [waits]
          rfl
      | some line =>
          rw [Channel.drain_of_line cut text]
          rw [text] at finds
          have read := next_read runs finds
          obtain ⟨moves, reached⟩ := reads_drain (s := s.next (.read side)) side rest
            (by rw [read]; exact runs)
            (by
              rw [read]
              refine (streams_put s side _).trans ?_
              rw [waits]
              rfl)
          refine ⟨.read side :: moves, reached.trans ?_⟩
          rw [read]
          simp only [put, Function.update_idem, Option.toList_some, List.append_assoc, List.singleton_append]
termination_by bs.length

/-- What is sent to a channel can be read as the channel takes it in. -/
theorem reads_push (side : Side) (ch : Channel) (bs : Octets) (runs : s.outcome = none)
    (waits : s.streams side = (Stream.ofChannel ch).receive bs) : ∃ moves, s.run moves =
      { s.put side (.ofChannel (ch.push bs).2) with lines := s.lines ++ (ch.push bs).1 } := by
  obtain ⟨pending, isOpen⟩ := ch
  cases isOpen with
  | true => exact reads_drain side _ runs waits
  | false =>
      refine ⟨[], ?_⟩
      have same : Stream.ofChannel ⟨pending, false⟩ = s.streams side := waits.symm
      change s = { s.put side (Stream.ofChannel ⟨pending, false⟩) with lines := s.lines ++ [] }
      rw [same, put_self, List.append_nil]

/-- The streams of a running command. -/
def streamsOf (r : Host.Running) : Side → Stream
  | .out => .ofChannel r.out
  | .err => .ofChannel r.err

/-- A reading that has read all that there is, between two acts of the process. -/
def between (c : Command) (ending : Ending) (acts : List Act) (r : Host.Running) : Reading :=
  ⟨c, acts, ending, streamsOf r, r.lines, false, none⟩

/-- What a process sends to one stream can be read before it acts again. -/
theorem reads_sent (ending : Ending) {a : Act} (rest : List Act) {r r' : Host.Running} {bs : Octets} {ch : Channel}
    (side : Side) (feeds : streamsOf r side = .ofChannel ch) (sends : a.sent side = bs)
    (alone : ∀ other, other ≠ side → a.sent other = [])
    (streams : streamsOf r' = Function.update (streamsOf r) side (.ofChannel (ch.push bs).2))
    (lines : r'.lines = r.lines ++ (ch.push bs).1) :
    ∃ moves, (between c ending (a :: rest) r).run moves = between c ending rest r' := by
  have acted : (between c ending (a :: rest) r).next .act = { between c ending rest r with
      streams := Function.update (streamsOf r) side ((Stream.ofChannel ch).receive bs) } := by
    have receives : (fun other => (streamsOf r other).receive (a.sent other)) =
        Function.update (streamsOf r) side ((Stream.ofChannel ch).receive bs) := by
      funext other
      by_cases same : other = side
      · subst same
        rw [Function.update_self, feeds, sends]
      · rw [Function.update_of_ne same, alone other same, Stream.receive_nil]
    simp only [next, between, receives]
  obtain ⟨moves, reached⟩ := reads_push (s := (between c ending (a :: rest) r).next .act) side ch bs
    (by rw [acted]; rfl) (by rw [acted]; exact Function.update_self ..)
  refine ⟨.act :: moves, reached.trans ?_⟩
  rw [acted]
  simp only [between, put, Function.update_idem, streams, lines]

theorem reads_act (h : Host) (cwd : Path) (ending : Ending) (a : Act) (rest : List Act) (r : Host.Running) :
    ∃ moves, (between c ending (a :: rest) r).run moves = between c ending rest (h.act cwd r a).2 := by
  have silent : ∀ a : Act, (∀ side, a.sent side = []) →
      (between c ending (a :: rest) r).next .act = between c ending rest r := by
    intro a silent
    simp only [next, between, silent, Stream.receive_nil]
  cases a with
  | out bs =>
      refine reads_sent ending rest .out rfl rfl ?_ ?_ rfl
      · rintro ⟨⟩ apart
        · exact absurd rfl apart
        · rfl
      · funext side
        cases side <;> rfl
  | err bs =>
      refine reads_sent ending rest .err rfl rfl ?_ ?_ rfl
      · rintro ⟨⟩ apart
        · rfl
        · exact absurd rfl apart
      · funext side
        cases side <;> rfl
  | _ => exact ⟨[.act], silent _ fun _ => rfl⟩

/-- The acts that the machine performs can be read as it does. -/
theorem reads_play (h : Host) (mode : RunMode) (cwd : Path) (ending : Ending) (acts : List Act)
    (r : Host.Running) : ∃ moves rest, (between c ending acts r).run moves =
      between c ending rest (h.play mode cwd r acts).2.2 ∧
      ((h.play mode cwd r acts).1 = false → rest = []) := by
  induction acts generalizing h r with
  | nil => exact ⟨[], [], rfl, fun _ => rfl⟩
  | cons a acts ih =>
      obtain ⟨first, reached⟩ := reads_act (c := c) h cwd ending a acts r
      unfold Host.play
      dsimp only
      split
      · exact ⟨first, acts, reached, nofun⟩
      · obtain ⟨moves, rest, ended, whole⟩ := ih (((h.act cwd r a).1).settle
          (Host.reported mode (h.act cwd r a).2)) (h.act cwd r a).2
        refine ⟨first ++ moves, rest, ?_, whole⟩
        rw [run_append, reached]
        exact ended

theorem settled_play (h : Host) (mode : RunMode) (cwd : Path) (acts : List Act) {r : Host.Running}
    (out : r.out.Settled) (err : r.err.Settled) :
    (h.play mode cwd r acts).2.2.out.Settled ∧ (h.play mode cwd r acts).2.2.err.Settled := by
  induction acts generalizing h r with
  | nil => exact ⟨out, err⟩
  | cons a acts ih =>
      have both : (h.act cwd r a).2.out.Settled ∧ (h.act cwd r a).2.err.Settled := by
        cases a with
        | out bs => exact ⟨out.push bs, err⟩
        | err bs => exact ⟨out, err.push bs⟩
        | _ => exact ⟨out, err⟩
      unfold Host.play
      dsimp only
      split
      · exact both
      · exact ih _ both.1 both.2

/-- The process closes a stream, and the reader takes what is left there. -/
theorem reads_close (side : Side) {ch : Channel} (settled : ch.Settled) (runs : s.outcome = none)
    (done : s.acts = []) (waits : s.streams side = .ofChannel ch) : ∃ moves stream, stream.isRead = false ∧
      s.run moves = { s.put side stream with lines := s.lines ++ ch.close } := by
  obtain ⟨pending, isOpen⟩ := ch
  have shut : s.next (.shut side) = s.put side ⟨pending, true, isOpen⟩ := by
    simp only [next, done, waits, Stream.ofChannel]
    rfl
  cases isOpen with
  | false =>
      refine ⟨[.shut side], ⟨pending, true, false⟩, rfl, shut.trans ?_⟩
      change _ = { s.put side _ with lines := s.lines ++ [] }
      rw [List.append_nil]
      rfl
  | true =>
      have uncut : cutLine? pending = none := settled
      -- the end of the stream, when nothing is left in it
      have ceased : ∀ s' : Reading, s'.outcome = none → s'.streams side = ⟨[], true, true⟩ →
          s'.next (.read side) = { s'.put side ⟨[], true, false⟩ with lines := s'.lines ++ [] } := by
        intro s' runs' empty
        exact next_read runs' (by rw [empty]; rfl)
      cases pending with
      | nil =>
          refine ⟨[.shut side, .read side], ⟨[], true, false⟩, rfl, ?_⟩
          have last := ceased (s.next (.shut side)) (by rw [shut]; exact runs)
            (by rw [shut]; exact streams_put s side _)
          refine last.trans ?_
          rw [shut, put_put]
          rfl
      | cons b bs =>
          have finds : ((s.next (.shut side)).streams side).next? =
              some (Stream.advance ⟨b :: bs, true, true⟩ (Utf8.toString? (b :: bs)) []) := by
            rw [shut, streams_put]
            simp only [Stream.next?, uncut, if_true]
            rfl
          have runs' : (s.next (.shut side)).outcome = none := by
            rw [shut]
            exact runs
          have read := next_read runs' finds
          have closes : Channel.close ⟨b :: bs, true⟩ = (Utf8.toString? (b :: bs)).toList := rfl
          rw [closes]
          cases text : Utf8.toString? (b :: bs) with
          | none =>
              rw [text] at read
              refine ⟨[.shut side, .read side], ⟨[], true, false⟩, rfl, read.trans ?_⟩
              rw [shut, put_put]
              rfl
          | some line =>
              rw [text] at read
              refine ⟨[.shut side, .read side, .read side], ⟨[], true, false⟩, rfl, ?_⟩
              have last := ceased ((s.next (.shut side)).next (.read side)) (by rw [read]; exact runs')
                (by rw [read]; exact streams_put _ side _)
              refine last.trans ?_
              rw [read, shut]
              simp only [put, Function.update_idem, List.append_nil]

/-- Somebody cancels, and the reader sees it. -/
theorem reads_cancel (runs : s.outcome = none) :
    s.run [.cancel, .stop] = { s with cancelled := true, outcome := some (.error .cancelled) } := by
  simp [run, next, runs]

theorem next_wait (ceased : s.isOver = true) (runs : s.outcome = none) :
    s.next .wait = { s with outcome := some (s.ending.outcome s.command) } := by
  simp [next, ceased, runs]

/-- The end of a process whose output has all been taken in. -/
theorem reads_end {ending : Ending} {r : Host.Running} (ends : ending ≠ .hang) (out : r.out.Settled)
    (err : r.err.Settled) : ∃ moves s, (between c ending [] r).run moves = s ∧
      s.outcome = some (ending.outcome c) ∧ s.lines = r.lines ++ r.out.close ++ r.err.close := by
  have apart : Side.err ≠ Side.out := nofun
  obtain ⟨first, stream, shut, reached⟩ := reads_close (s := between c ending [] r) .out out rfl rfl rfl
  obtain ⟨second, stream', shut', reached'⟩ := reads_close (s := (between c ending [] r).run first)
    .err err (by rw [reached]; rfl) (by rw [reached]; rfl)
    (by rw [reached]; exact streams_put_of_ne _ apart stream)
  rw [← run_append, reached] at reached'
  have ceased : ((between c ending [] r).run (first ++ second)).isOver = true := by
    rw [reached']
    simp [isOver, put, between, ends, shut, shut']
  have last := next_wait ceased (by rw [reached']; rfl)
  refine ⟨first ++ second ++ [.wait], _, rfl, ?_⟩
  rw [run_append]
  change (next _ .wait).outcome = _ ∧ (next _ .wait).lines = _
  rw [last, reached']
  exact ⟨rfl, rfl⟩

/-- What the machine reports of a command that it has started is what one of its readings gives. -/
theorem reads_execute {h : Host} {inv : Invocation} {mode : RunMode}
    (calm : ¬ (h.isCancelled ∧ mode ≠ .steady)) (started : h.invocation c = .ok inv) :
    ∃ moves s, (start c (h.programs inv h.files)).run moves = s ∧
      s.outcome = some (h.execute c mode).1.outcome ∧ s.lines = (h.execute c mode).1.lines := by
  unfold Host.execute
  rw [if_neg calm, started]
  dsimp only
  generalize h.programs inv h.files = p
  obtain ⟨acts, ending⟩ := p
  obtain ⟨moves, rest, reached, whole⟩ := reads_play (c := c)
    { h with started := h.started ++ [inv] } mode inv.cwd ending acts ⟨.empty, .empty, []⟩
  obtain ⟨out, err⟩ := settled_play { h with started := h.started ++ [inv] } mode inv.cwd acts
    (r := ⟨.empty, .empty, []⟩) rfl rfl
  have begins : start c ⟨acts, ending⟩ = between c ending acts ⟨.empty, .empty, []⟩ := by
    unfold start between
    congr 1
    funext side
    cases side <;> rfl
  rw [← begins] at reached
  generalize Host.play _ mode inv.cwd _ _ = played at reached whole out err ⊢
  obtain ⟨stopped, after, r⟩ := played
  have gives_up : ∃ moves s, (start c ⟨acts, ending⟩).run moves = s ∧
      s.outcome = some (.error .cancelled) ∧ s.lines = r.lines := by
    refine ⟨moves ++ [.cancel, .stop], _, rfl, ?_⟩
    rw [run_append, reached, reads_cancel rfl]
    exact ⟨rfl, rfl⟩
  cases stopped with
  | true => exact gives_up
  | false =>
      obtain rfl := whole rfl
      have ends : ending ≠ .hang → ∃ moves s, (start c ⟨acts, ending⟩).run moves = s ∧
          s.outcome = some (ending.outcome c) ∧ s.lines = r.lines ++ r.out.close ++ r.err.close := by
        intro ends
        obtain ⟨more, s, reached', returned, lines⟩ := reads_end (c := c) ends out err
        refine ⟨moves ++ more, s, ?_, returned, lines⟩
        rw [run_append, reached, reached']
      cases ending with
      | hang => exact gives_up
      | exit code => exact ends nofun
      | signal number => exact ends nofun

end Reading

namespace Host

theorem told_play (h : Host) (mode : RunMode) (cwd : Path) (acts : List Act) (r : Running) :
    (h.play mode cwd r acts).2.1.told = h.told := by
  induction acts generalizing h r with
  | nil => rfl
  | cons a acts ih =>
      have same : (h.act cwd r a).1.told = h.told := by cases a <;> rfl
      unfold play
      dsimp only
      split
      · exact same
      · exact (ih _ _).trans same

/-- The lines of a command whose output is reported have all been told. -/
theorem told_execute (h : Host) (c : Command) :
    (h.execute c .reported).2.told = h.told ++ (h.execute c .reported).1.lines := by
  unfold execute
  split
  · exact (List.append_nil _).symm
  · split
    · exact (List.append_nil _).symm
    · next inv started =>
        dsimp only
        have same := { h with started := h.started ++ [inv] }.told_play .reported inv.cwd
          (h.programs inv h.files).acts ⟨.empty, .empty, []⟩
        generalize play _ _ _ _ _ = played at same ⊢
        obtain ⟨stopped, after, r⟩ := played
        have entered : ∀ lines, (after.enterLines .reported lines).told = h.told ++ lines := by
          intro lines
          exact congrArg (· ++ lines) same
        split
        · exact entered _
        · split <;> exact entered _

end Host

/-- The lines are all those of both streams, with any line in the place of one that is not text. -/
def Performance.Delivered (p : Performance) (lines : List String) : Prop :=
  ∃ out err, List.Forall₂ Renders (rows (p.sent .out)) out ∧
    List.Forall₂ Renders (rows (p.sent .err)) err ∧ Interleaves out err lines

theorem Performance.delivered_iff {p : Performance} {lines : List String}
    (merged : Interleaves (readable (rows (p.sent .out))) (readable (rows (p.sent .err))) lines) :
    p.Delivered lines ↔ ∀ side, none ∉ rows (p.sent side) := by
  constructor
  · rintro ⟨out, err, all_out, all_err, whole⟩
    -- a stream that is cut short is missed in the number of lines
    have count := merged.length.symm.trans whole.length
    rw [← all_out.length_eq, ← all_err.length_eq] at count
    have most := fun side => Channel.length_readable_le (rows (p.sent side))
    have out_most := most .out
    have err_most := most .err
    intro side
    apply (Channel.length_readable_iff _).mp
    cases side with
    | out => omega
    | err => omega
  · intro text
    exact ⟨_, _, Channel.forall₂_readable (text .out), Channel.forall₂_readable (text .err), merged⟩

namespace Reading
variable {c : Command} {p : Performance} {s : Reading}

/-- A command that has returned on its own has passed on what can be read of its output, and all of it. -/
structure Returned (c : Command) (p : Performance) (lines : List String) (r : Except Error Unit) : Prop where
  ending : r = p.ending.outcome c
  ok : r = .ok () ↔ p.ending = .exit 0
  merged : Interleaves (readable (rows (p.sent .out))) (readable (rows (p.sent .err))) lines
  delivered : p.Delivered lines ↔ ∀ side, none ∉ rows (p.sent side)

theorem Sound.returned_of_outcome (sound : Sound c p s) {r : Except Error Unit} (returned : s.outcome = some r)
    (own : r ≠ .error .cancelled) : Returned c p s.lines r ∧ s.acts = [] := by
  obtain ⟨ceased, rfl⟩ := (sound.returned r returned).resolve_left own
  obtain ⟨got, merged, owes⟩ := sound.shares
  have all : ∀ side, got side = readable (rows (p.sent side)) := by
    intro side
    rw [owes, Stream.owed, if_neg (Bool.eq_false_iff.mp (isRead_of_isOver ceased side)), List.append_nil]
  rw [all, all] at merged
  refine ⟨⟨rfl, ?_, merged, Performance.delivered_iff merged⟩, acts_of_isOver ceased⟩
  unfold Ending.outcome
  constructor
  · intro ok
    split at ok
    · assumption
    · cases ok
  · intro success
    rw [if_pos success]

/-- In whatever order the streams are read, a command that returns without having been cancelled has ended,
says how, and has passed on the lines of both streams, put together, each up to its first that is not text:
the output is whole if and only if there is none. Nothing comes after that, every reading gets there unless
the process hangs, and what the machine reports, and tells, is one of the readings. -/
theorem output_is_whole_iff_text (c : Command) (p : Performance) :
    (∀ moves r, ((start c p).run moves).outcome = some r → r ≠ .error .cancelled →
      Returned c p ((start c p).run moves).lines r ∧ ((start c p).run moves).acts = [] ∧
      ∀ more, (((start c p).run moves).run more).lines = ((start c p).run moves).lines) ∧
    (∀ (s : Reading) m, s.next m = s ∨ (s.next m).rank < s.rank) ∧
    (∀ moves, ((start c p).run moves).outcome = none → p.ending ≠ .hang →
      ∃ m : Move, m.IsPlain ∧ (((start c p).run moves).next m).rank < ((start c p).run moves).rank) ∧
    ∀ (h : Host) inv mode, h.invocation c = .ok inv → h.programs inv h.files = p →
      (h.execute c mode).1.outcome ≠ .error .cancelled →
        Returned c p (h.execute c mode).1.lines (h.execute c mode).1.outcome ∧
        (mode = .reported → (h.execute c mode).2.told = h.told ++ (h.execute c mode).1.lines) := by
  refine ⟨fun moves r returned own => ?_, fun s m => (s.steps_next m).rank, fun moves runs ends => ?_,
    fun h inv mode started plays own => ⟨?_, ?_⟩⟩
  · obtain ⟨result, done⟩ := ((sound_start c p).run moves).returned_of_outcome returned own
    exact ⟨result, done, lines_run_of_returned returned⟩
  · apply progress runs
    rw [((sound_start c p).run moves).ending]
    exact ends
  · have calm : ¬ (h.isCancelled ∧ mode ≠ .steady) := by
      intro cancelled
      apply own
      unfold Host.execute
      rw [if_pos cancelled]
    obtain ⟨moves, s, reached, returned, lines⟩ := reads_execute calm started
    rw [plays] at reached
    have sound : Sound c p s := reached ▸ (sound_start c p).run moves
    rw [← lines]
    exact (sound.returned_of_outcome returned own).1
  · rintro rfl
    exact h.told_execute c

/-- A process that prints a line, an octet that is not text, and a line more. -/
def garbled : Performance := ⟨[.out [111, 107, 10], .out [255, 10], .out [98, 121, 101, 10]], .exit 0⟩

theorem garbled_output_is_cut_short : ∃ moves, let s := (start (.ofArgs "sh" []) garbled).run moves
    s.outcome = some (.ok ()) ∧ s.lines = ["ok"] ∧ ¬ garbled.Delivered s.lines := by
  refine ⟨[.act, .read .out, .act, .read .out, .act, .shut .out, .shut .err, .read .err, .wait], ?_⟩
  intro s
  have returned : s.outcome = some (.ok ()) := by decide +kernel
  have lines : s.lines = ["ok"] := by decide +kernel
  refine ⟨returned, lines, fun delivered => ?_⟩
  obtain ⟨result, -⟩ := (output_is_whole_iff_text (.ofArgs "sh" []) garbled).1 _ _ returned nofun
  apply result.delivered.mp delivered .out
  have first : rows (garbled.sent .out) = _ := Channel.rows_of_cut rfl
  have second : rows [255, 10, 98, 121, 101, 10] = _ := Channel.rows_of_cut rfl
  rw [first]
  refine .tail _ ?_
  change none ∈ rows [255, 10, 98, 121, 101, 10]
  have garbage : lineOf? [255] = none := by decide +kernel
  rw [second, garbage]
  exact .head _

end Reading

end LanguageHost
