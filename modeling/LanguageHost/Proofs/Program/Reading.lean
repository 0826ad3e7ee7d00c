import LanguageHost.Machine.Host
import LanguageHost.Machine.Process
import Mathlib.Data.List.Forall2
import Mathlib.Logic.Function.Basic

/-! The lines of a stream of output, and two lists of lines put together. A reader of the stream gets its
lines as far as they are text; the first that is not ends the reading. -/
namespace LanguageHost

/-- The third list is the first two put together, each in its own order. -/
inductive Interleaves {α : Type} : List α → List α → List α → Prop
  | nil : Interleaves [] [] []
  | left {a : α} {xs ys zs : List α} : Interleaves xs ys zs → Interleaves (a :: xs) ys (a :: zs)
  | right {a : α} {xs ys zs : List α} : Interleaves xs ys zs → Interleaves xs (a :: ys) (a :: zs)

namespace Interleaves
variable {α : Type} {xs ys zs : List α}

theorem only_left (xs : List α) : Interleaves xs [] xs := by
  induction xs with
  | nil => exact .nil
  | cons a xs ih => exact .left ih

theorem only_right (ys : List α) : Interleaves [] ys ys := by
  induction ys with
  | nil => exact .nil
  | cons a ys ih => exact .right ih

theorem length (h : Interleaves xs ys zs) : zs.length = xs.length + ys.length := by
  induction h with
  | nil => rfl
  | left _ ih =>
      simp only [List.length_cons, ih]
      omega
  | right _ ih =>
      simp only [List.length_cons, ih]
      omega

theorem append_left (h : Interleaves xs ys zs) (more : List α) :
    Interleaves (xs ++ more) ys (zs ++ more) := by
  induction h with
  | nil => exact only_left more
  | left _ ih => exact .left ih
  | right _ ih => exact .right ih

theorem append_right (h : Interleaves xs ys zs) (more : List α) :
    Interleaves xs (ys ++ more) (zs ++ more) := by
  induction h with
  | nil => exact only_right more
  | left _ ih => exact .left ih
  | right _ ih => exact .right ih

end Interleaves

namespace Channel

theorem cutLine?_append {bs front rest : Octets} (cut : cutLine? bs = some (front, rest)) (more : Octets) :
    cutLine? (bs ++ more) = some (front, rest ++ more) := by
  induction bs generalizing front with
  | nil => cases cut
  | cons b bs ih =>
      simp only [cutLine?] at cut
      simp only [List.cons_append, cutLine?]
      split at cut
      · next newline =>
          cases cut
          rw [if_pos newline]
      · next other =>
          obtain ⟨⟨x, y⟩, deeper, same⟩ := Option.map_eq_some_iff.mp cut
          cases same
          rw [if_neg other, ih deeper]
          rfl

/-- The lines of a stream, `none` for one that is not text. What follows the last newline is a line too, as
it stands, unless there is nothing. -/
def rows (bs : Octets) : List (Option String) :=
  match h : cutLine? bs with
  | some (front, rest) =>
    have : rest.length < bs.length := cutLine?_shorter h
    lineOf? front :: rows rest
  | none => if bs.isEmpty then [] else [Utf8.toString? bs]
termination_by bs.length

theorem rows_of_cut {bs front rest : Octets} (cut : cutLine? bs = some (front, rest)) :
    rows bs = lineOf? front :: rows rest := by
  rw [rows]
  split
  · next front' rest' same =>
      cases same.symm.trans cut
      rfl
  · next none => cases none.symm.trans cut

theorem rows_of_uncut {bs : Octets} (uncut : cutLine? bs = none) :
    rows bs = if bs.isEmpty then [] else [Utf8.toString? bs] := by
  rw [rows]
  split
  · next some => cases some.symm.trans uncut
  · rfl

theorem rows_nil : rows [] = [] := rows_of_uncut rfl

/-- The lines in front of the first that is not text. -/
def readable : List (Option String) → List String
  | some line :: rest => line :: readable rest
  | _ => []

theorem length_readable_le (lines : List (Option String)) : (readable lines).length ≤ lines.length := by
  induction lines with
  | nil => exact Nat.le_refl _
  | cons line rest ih =>
      cases line with
      | none => exact Nat.zero_le _
      | some line => exact Nat.succ_le_succ ih

/-- A line stands for what was sent: it is the same where that was text, and any line where it was not. -/
def Renders (sent : Option String) (line : String) : Prop := ∀ text, sent = some text → line = text

theorem forall₂_readable {lines : List (Option String)} (text : none ∉ lines) :
    List.Forall₂ Renders lines (readable lines) := by
  induction lines with
  | nil => exact .nil
  | cons line rest ih =>
      obtain ⟨here, later⟩ := not_or.mp fun either => text (List.mem_cons.mpr either)
      cases line with
      | none => exact absurd rfl here
      | some line => exact .cons (fun _ same => Option.some.inj same) (ih later)

theorem length_readable_iff (lines : List (Option String)) :
    (readable lines).length = lines.length ↔ none ∉ lines := by
  constructor
  · intro whole
    induction lines with
    | nil => exact List.not_mem_nil
    | cons line rest ih =>
        cases line with
        | none => cases whole
        | some line =>
            intro there
            cases there with
            | tail _ later => exact ih (Nat.succ.inj whole) later
  · intro text
    exact (forall₂_readable text).length_eq.symm

end Channel

/-! A command that is read while it runs. The process sends to its two streams, closes them and ends when it
likes; the reader takes a line of either stream that has one, and gives up a stream at its end or at a line
that is not text. In whatever order this happens, the lines are those of the two streams put together, as far
as each is text, and the command has returned only when there are no more. -/

open Channel (cutLine? lineOf? rows readable Renders)

/-- The streams of a process. -/
inductive Side where
  | out | err
deriving DecidableEq

/-- What an act sends to a stream. -/
def Act.sent (side : Side) : Act → Octets
  | .out bs => if side = .out then bs else []
  | .err bs => if side = .err then bs else []
  | _ => []

/-- What acts send to a stream, one after the other. -/
def sentBy (acts : List Act) (side : Side) : Octets := acts.flatMap (Act.sent side)

/-- All that a process sends to a stream. -/
def Performance.sent (p : Performance) (side : Side) : Octets := sentBy p.acts side

/-- How a command has gone whose process has ended. -/
def Ending.outcome (ending : Ending) (c : Command) : Except Error Unit :=
  if ending = .exit 0 then .ok () else .error (.commandFailed c.display ending.status)

/-- A stream between the process and the reader. -/
structure Stream where
  /-- what was sent and is not read yet -/
  waiting : Octets
  /-- the process has closed it -/
  ended : Bool
  isRead : Bool

namespace Stream

/-- What is sent to a stream that nobody reads is lost. -/
def receive (s : Stream) (bs : Octets) : Stream :=
  if s.isRead then { s with waiting := s.waiting ++ bs } else s

def dropped (s : Stream) : Stream := { s with waiting := [], isRead := false }

/-- Goes on behind a line; one that is not text is the last. -/
def advance (s : Stream) (line : Option String) (rest : Octets) : Option String × Stream :=
  (line, if line.isSome then { s with waiting := rest } else s.dropped)

/-- What the reader finds, and the stream behind it: a line, or that there is no more to read. -/
def next? (s : Stream) : Option (Option String × Stream) :=
  if s.isRead then
    match cutLine? s.waiting with
    | some (front, rest) => some (s.advance (lineOf? front) rest)
    | none =>
      if s.ended then
        if s.waiting.isEmpty then some (none, s.dropped)
        else some (s.advance (Utf8.toString? s.waiting) [])
      else none
  else none

/-- The lines that the reader has still to get, where `left` is still to be sent. -/
def owed (s : Stream) (left : Octets) : List String :=
  if s.isRead then readable (rows (s.waiting ++ left)) else []

/-- How much there is to do for the reader. -/
def weight (s : Stream) : Nat :=
  s.waiting.length + s.isRead.toNat + (!s.ended).toNat

variable {s s' : Stream} {line : Option String} {left : Octets}

theorem owed_receive (s : Stream) (bs left : Octets) : (s.receive bs).owed left = s.owed (bs ++ left) := by
  cases reading : s.isRead with
  | true => simp [receive, owed, reading]
  | false => simp [receive, owed, reading]

theorem weight_receive_le (s : Stream) (bs : Octets) : (s.receive bs).weight ≤ s.weight + bs.length := by
  unfold receive
  split
  · simp only [weight, List.length_append]
    omega
  · exact Nat.le_add_right _ _

theorem weight_end (s : Stream) (opened : s.ended = false) :
    ({ s with ended := true } : Stream).weight < s.weight := by
  simp [weight, opened]

theorem weight_dropped (reading : s.isRead = true) : s.dropped.weight < s.weight := by
  simp only [weight, dropped, reading, List.length_nil, Bool.toNat_true, Bool.toNat_false]
  omega

/-- Behind a line the stream owes one line less, and behind one that is not text nothing. -/
theorem owed_advance {sent : Octets} (line : Option String) (rest left : Octets) (reading : s.isRead = true)
    (lines : rows sent = line :: rows (rest ++ left)) :
    readable (rows sent) = (s.advance line rest).1.toList ++ (s.advance line rest).2.owed left := by
  rw [lines]
  cases line with
  | none => rfl
  | some text => simp [advance, owed, reading, readable]

theorem weight_advance {rest : Octets} (line : Option String) (reading : s.isRead = true)
    (shorter : rest.length < s.waiting.length) : (s.advance line rest).2.weight < s.weight := by
  cases line with
  | none => exact weight_dropped reading
  | some text =>
      simp only [advance, weight, Option.isSome_some, if_true]
      omega

/-- What the reader finds is what the stream owes first. -/
theorem owed_next (found : s.next? = some (line, s')) (last : s.ended = true → left = []) :
    s.owed left = line.toList ++ s'.owed left := by
  unfold next? at found
  split at found
  · next reading =>
      have owes : s.owed left = readable (rows (s.waiting ++ left)) := if_pos reading
      rw [owes]
      split at found
      · next front rest cut =>
          obtain ⟨rfl, rfl⟩ := Prod.mk.inj (Option.some.inj found)
          exact owed_advance _ rest left reading (Channel.rows_of_cut (Channel.cutLine?_append cut left))
      · next uncut =>
          split at found
          · next ended =>
              obtain rfl := last ended
              rw [List.append_nil]
              split at found
              · next nothing =>
                  obtain ⟨rfl, rfl⟩ := Prod.mk.inj (Option.some.inj found)
                  rw [List.isEmpty_iff.mp nothing, Channel.rows_nil]
                  rfl
              · next something =>
                  obtain ⟨rfl, rfl⟩ := Prod.mk.inj (Option.some.inj found)
                  refine owed_advance (Utf8.toString? s.waiting) [] [] reading ?_
                  rw [Channel.rows_of_uncut uncut, if_neg something, List.append_nil, Channel.rows_nil]
          · cases found
  · cases found

theorem weight_next (found : s.next? = some (line, s')) : s'.weight < s.weight := by
  unfold next? at found
  split at found
  · next reading =>
      split at found
      · next front rest cut =>
          obtain ⟨-, rfl⟩ := Prod.mk.inj (Option.some.inj found)
          exact weight_advance _ reading (Channel.cutLine?_shorter cut)
      · split at found
        · split at found
          · obtain ⟨-, rfl⟩ := Prod.mk.inj (Option.some.inj found)
            exact weight_dropped reading
          · next something =>
              obtain ⟨-, rfl⟩ := Prod.mk.inj (Option.some.inj found)
              refine weight_advance _ reading (List.length_pos_iff.mpr fun nothing => something ?_)
              rw [nothing]
              rfl
        · cases found
  · cases found

/-- At a stream that is read and has ended there is something to find. -/
theorem next_of_ended (reading : s.isRead = true) (ended : s.ended = true) :
    ∃ found, s.next? = some found := by
  unfold next?
  rw [if_pos reading]
  split
  · exact ⟨_, rfl⟩
  · rw [if_pos ended]
    split
    · exact ⟨_, rfl⟩
    · exact ⟨_, rfl⟩

theorem ended_next (found : s.next? = some (line, s')) : s'.ended = s.ended := by
  have advanced : ∀ line rest, (s.advance line rest).2.ended = s.ended := by
    intro line rest
    cases line <;> rfl
  unfold next? at found
  repeat' split at found
  · obtain ⟨-, rfl⟩ := Prod.mk.inj (Option.some.inj found)
    exact advanced _ _
  · obtain ⟨-, rfl⟩ := Prod.mk.inj (Option.some.inj found)
    rfl
  · obtain ⟨-, rfl⟩ := Prod.mk.inj (Option.some.inj found)
    exact advanced _ _
  · cases found
  · cases found

end Stream

/-- A command that runs and is read. -/
structure Reading where
  command : Command
  /-- what the process has still to do -/
  acts : List Act
  ending : Ending
  streams : Side → Stream
  /-- the lines that have been passed on -/
  lines : List String
  cancelled : Bool
  /-- what the command has returned -/
  outcome : Option (Except Error Unit)

namespace Reading

def start (c : Command) (p : Performance) : Reading :=
  ⟨c, p.acts, p.ending, fun _ => ⟨[], false, true⟩, [], false, none⟩

inductive Move where
  /-- the process does what comes next -/
  | act
  /-- the process closes a stream, to which it sends no more -/
  | shut (side : Side)
  /-- the reader takes what a stream has for it -/
  | read (side : Side)
  | cancel
  /-- the reader sees that somebody has cancelled -/
  | stop
  /-- the reader has given up both streams and learns how the process has ended -/
  | wait

def put (s : Reading) (side : Side) (stream : Stream) : Reading :=
  { s with streams := Function.update s.streams side stream }

/-- The process has ended, and neither stream is read any more. -/
def isOver (s : Reading) : Bool :=
  s.acts.isEmpty && s.ending != .hang && !(s.streams .out).isRead && !(s.streams .err).isRead

/-- A move that cannot be made changes nothing. -/
def next (s : Reading) : Move → Reading
  | .act =>
    match s.acts with
    | [] => s
    | a :: rest =>
      { s with acts := rest, streams := fun side => (s.streams side).receive (a.sent side) }
  | .shut side =>
    if (sentBy s.acts side).isEmpty then s.put side { s.streams side with ended := true } else s
  | .read side =>
    match s.outcome, (s.streams side).next? with
    | none, some (line, stream) => { s.put side stream with lines := s.lines ++ line.toList }
    | _, _ => s
  | .cancel => { s with cancelled := true }
  | .stop =>
    if s.cancelled && s.outcome.isNone then { s with outcome := some (.error .cancelled) } else s
  | .wait =>
    if s.isOver && s.outcome.isNone then { s with outcome := some (s.ending.outcome s.command) } else s

def run (s : Reading) (moves : List Move) : Reading := moves.foldl next s

theorem run_append (s : Reading) (first rest : List Move) :
    s.run (first ++ rest) = (s.run first).run rest := List.foldl_append

/-- What a move can do. -/
inductive Steps (s : Reading) : Reading → Prop
  | stay : Steps s s
  | act {a : Act} {rest : List Act} (does : s.acts = a :: rest) :
    Steps s { s with acts := rest, streams := fun side => (s.streams side).receive (a.sent side) }
  | shut {side : Side} (silent : sentBy s.acts side = []) :
    Steps s (s.put side { s.streams side with ended := true })
  | read {side : Side} {line : Option String} {stream : Stream} (runs : s.outcome = none)
      (found : (s.streams side).next? = some (line, stream)) :
    Steps s { s.put side stream with lines := s.lines ++ line.toList }
  | cancel : Steps s { s with cancelled := true }
  | stop (cancelled : s.cancelled = true) (runs : s.outcome = none) :
    Steps s { s with outcome := some (.error .cancelled) }
  | wait (ceased : s.isOver = true) (runs : s.outcome = none) :
    Steps s { s with outcome := some (s.ending.outcome s.command) }

theorem steps_next (s : Reading) (m : Move) : s.Steps (s.next m) := by
  cases m with
  | act =>
      simp only [next]
      split
      · exact .stay
      · next does => exact .act does
  | shut side =>
      simp only [next]
      split
      · next silent => exact .shut (List.isEmpty_iff.mp silent)
      · exact .stay
  | read side =>
      simp only [next]
      split
      · next runs found => exact .read runs found
      · exact .stay
  | cancel => exact .cancel
  | stop =>
      simp only [next]
      split
      · next ready =>
          obtain ⟨cancelled, runs⟩ := Bool.and_eq_true_iff.mp ready
          exact .stop cancelled (Option.isNone_iff_eq_none.mp runs)
      · exact .stay
  | wait =>
      simp only [next]
      split
      · next ready =>
          obtain ⟨ceased, runs⟩ := Bool.and_eq_true_iff.mp ready
          exact .wait ceased (Option.isNone_iff_eq_none.mp runs)
      · exact .stay

/-- What is known at every state of a run. The lines so far are the beginnings of what the two streams have
to give, put together, and the rest is what the streams owe. -/
structure Sound (c : Command) (p : Performance) (s : Reading) : Prop where
  command : s.command = c
  ending : s.ending = p.ending
  ended : ∀ side, (s.streams side).ended = true → sentBy s.acts side = []
  shares : ∃ got : Side → List String, Interleaves (got .out) (got .err) s.lines ∧
    ∀ side, readable (rows (p.sent side)) = got side ++ (s.streams side).owed (sentBy s.acts side)
  returned : ∀ r, s.outcome = some r → r = .error .cancelled ∨ s.isOver = true ∧ r = p.ending.outcome c

variable {c : Command} {p : Performance} {s s' : Reading}

theorem sound_start (c : Command) (p : Performance) : Sound c p (start c p) where
  command := rfl
  ending := rfl
  ended _ := nofun
  shares := ⟨fun _ => [], .nil, fun _ => rfl⟩
  returned _ := nofun

theorem streams_put (s : Reading) (side : Side) (stream : Stream) :
    (s.put side stream).streams side = stream := Function.update_self ..

theorem streams_put_of_ne (s : Reading) {side other : Side} (ne : other ≠ side) (stream : Stream) :
    (s.put side stream).streams other = s.streams other := Function.update_of_ne ne ..

/-- A line more of one stream. -/
theorem interleaves_update {got : Side → List String} {lines : List String}
    (h : Interleaves (got .out) (got .err) lines) (side : Side) (more : List String) :
    Interleaves (Function.update got side (got side ++ more) .out)
      (Function.update got side (got side ++ more) .err) (lines ++ more) := by
  cases side with
  | out => exact h.append_left more
  | err => exact h.append_right more

theorem not_isOver_of_act {a : Act} {rest : List Act} (does : s.acts = a :: rest) : s.isOver = false := by
  simp [isOver, does]

theorem isRead_of_isOver (ceased : s.isOver = true) (side : Side) : (s.streams side).isRead = false := by
  simp only [isOver, Bool.and_eq_true, Bool.not_eq_true'] at ceased
  cases side with
  | out => exact ceased.1.2
  | err => exact ceased.2

theorem acts_of_isOver (ceased : s.isOver = true) : s.acts = [] := by
  simp only [isOver, Bool.and_eq_true] at ceased
  exact List.isEmpty_iff.mp ceased.1.1.1

theorem Sound.steps (h : Sound c p s) (made : s.Steps s') : Sound c p s' := by
  obtain ⟨got, merged, owes⟩ := h.shares
  cases made with
  | stay => exact h
  | @act a rest does =>
      have split : ∀ side, sentBy s.acts side = a.sent side ++ sentBy rest side := by
        intro side
        rw [does]
        exact List.flatMap_cons
      refine ⟨h.command, h.ending, fun side ended => ?_, ⟨got, merged, fun side => ?_⟩, fun r returned => ?_⟩
      · have before : (s.streams side).ended = true := by
          simp only [Stream.receive] at ended
          split at ended <;> exact ended
        have nothing := h.ended side before
        rw [split] at nothing
        exact (List.append_eq_nil_iff.mp nothing).2
      · rw [Stream.owed_receive, ← split]
        exact owes side
      · rcases h.returned r returned with cancelled | ⟨ceased, -⟩
        · exact .inl cancelled
        · cases (not_isOver_of_act does).symm.trans ceased
  | @shut side silent =>
      refine ⟨h.command, h.ending, fun other ended => ?_, ⟨got, merged, fun other => ?_⟩,
        fun r returned => ?_⟩
      · by_cases same : other = side
        · subst same
          exact silent
        · rw [streams_put_of_ne s same] at ended
          exact h.ended other ended
      · by_cases same : other = side
        · subst same
          rw [streams_put]
          exact owes other
        · rw [streams_put_of_ne s same]
          exact owes other
      · rcases h.returned r returned with cancelled | ⟨ceased, rest⟩
        · exact .inl cancelled
        · refine .inr ⟨?_, rest⟩
          rw [← ceased]
          cases side <;> rfl
  | @read side line stream runs found =>
      refine ⟨h.command, h.ending, fun other ended => ?_,
        ⟨Function.update got side (got side ++ line.toList), interleaves_update merged side _,
          fun other => ?_⟩, fun r returned => ?_⟩
      · refine h.ended other ?_
        by_cases same : other = side
        · subst same
          rw [← Stream.ended_next found, ← streams_put s other stream]
          exact ended
        · rw [← streams_put_of_ne s same stream]
          exact ended
      · by_cases same : other = side
        · subst same
          have first := Stream.owed_next found (h.ended other)
          change _ = _ ++ ((s.put other stream).streams other).owed (sentBy s.acts other)
          rw [Function.update_self, streams_put, owes other, first, List.append_assoc]
        · change _ = _ ++ ((s.put side stream).streams other).owed (sentBy s.acts other)
          rw [Function.update_of_ne same, streams_put_of_ne s same]
          exact owes other
      · cases runs.symm.trans returned
  | cancel => exact ⟨h.command, h.ending, h.ended, ⟨got, merged, owes⟩, h.returned⟩
  | stop cancelled runs =>
      refine ⟨h.command, h.ending, h.ended, ⟨got, merged, owes⟩, fun r returned => .inl ?_⟩
      cases returned
      rfl
  | wait ceased runs =>
      refine ⟨h.command, h.ending, h.ended, ⟨got, merged, owes⟩, fun r returned => .inr ⟨ceased, ?_⟩⟩
      cases returned
      rw [h.ending, h.command]

theorem Sound.run (h : Sound c p s) (moves : List Move) : Sound c p (s.run moves) := by
  induction moves generalizing s with
  | nil => exact h
  | cons m moves ih => exact ih (h.steps (s.steps_next m))

/-! What has been returned stays, and no line comes after it. -/

theorem Steps.settled (made : s.Steps s') {r : Except Error Unit} (returned : s.outcome = some r) :
    s'.outcome = some r ∧ s'.lines = s.lines := by
  cases made with
  | read runs => cases runs.symm.trans returned
  | stop _ runs => cases runs.symm.trans returned
  | wait _ runs => cases runs.symm.trans returned
  | _ => exact ⟨returned, rfl⟩

theorem lines_run_of_returned {r : Except Error Unit} (returned : s.outcome = some r) (moves : List Move) :
    (s.run moves).lines = s.lines := by
  induction moves generalizing s with
  | nil => rfl
  | cons m moves ih =>
      obtain ⟨still, same⟩ := (s.steps_next m).settled returned
      exact (ih still).trans same

/-! A command that is read comes to its end. -/

/-- How much a process has still to do. -/
def effort : List Act → Nat
  | [] => 0
  | a :: rest => 1 + (a.sent .out).length + (a.sent .err).length + effort rest

/-- How many moves there can be at most that change something. -/
def rank (s : Reading) : Nat :=
  effort s.acts + (s.streams .out).weight + (s.streams .err).weight + (!s.cancelled).toNat +
    s.outcome.isNone.toNat

theorem rank_put (s : Reading) {side : Side} {stream : Stream}
    (lighter : stream.weight < (s.streams side).weight) : (s.put side stream).rank < s.rank := by
  cases side with
  | out =>
      simp only [rank, put, Function.update_self, Function.update_of_ne (show Side.err ≠ .out from nofun)]
      omega
  | err =>
      simp only [rank, put, Function.update_self, Function.update_of_ne (show Side.out ≠ .err from nofun)]
      omega

theorem rank_of_outcome (runs : s.outcome = none) (r : Except Error Unit) :
    ({ s with outcome := some r } : Reading).rank < s.rank := by
  simp [rank, runs]

theorem put_self (s : Reading) (side : Side) : s.put side (s.streams side) = s := by
  simp [put]

theorem Steps.rank (made : s.Steps s') : s' = s ∨ s'.rank < s.rank := by
  cases made with
  | stay => exact .inl rfl
  | @act a rest does =>
      have out := (s.streams .out).weight_receive_le (a.sent .out)
      have err := (s.streams .err).weight_receive_le (a.sent .err)
      have less : effort s.acts = 1 + (a.sent .out).length + (a.sent .err).length + effort rest := by
        rw [does, effort]
      right
      simp only [Reading.rank, less]
      omega
  | @shut side silent =>
      cases ended : (s.streams side).ended with
      | true =>
          left
          have same : ({ s.streams side with ended := true } : Stream) = s.streams side := by
            rw [← ended]
          rw [same, put_self]
      | false => exact .inr (s.rank_put (Stream.weight_end _ ended))
  | read runs found => exact .inr (s.rank_put (Stream.weight_next found))
  | cancel =>
      cases cancelled : s.cancelled with
      | true =>
          left
          rw [← cancelled]
      | false =>
          right
          simp [Reading.rank, cancelled]
  | stop cancelled runs => exact .inr (rank_of_outcome runs _)
  | wait ceased runs => exact .inr (rank_of_outcome runs _)

/-- The move has nothing to do with a cancellation. -/
def Move.IsPlain : Move → Prop
  | .cancel | .stop => False
  | _ => True

/-- As long as the command has not returned there is something to do, unless the process hangs. -/
theorem progress (runs : s.outcome = none) (ends : s.ending ≠ .hang) :
    ∃ m : Move, m.IsPlain ∧ (s.next m).rank < s.rank := by
  have lowers : ∀ m : Move, m.IsPlain → s.next m ≠ s → ∃ m : Move, m.IsPlain ∧ (s.next m).rank < s.rank :=
    fun m plain moved => ⟨m, plain, (s.steps_next m).rank.resolve_left moved⟩
  cases acts : s.acts with
  | cons a rest =>
      refine lowers .act trivial fun same => ?_
      have shorter : (s.next .act).acts = rest := by simp only [next, acts]
      rw [same, acts] at shorter
      exact absurd (congrArg List.length shorter) (Nat.succ_ne_self _)
  | nil =>
      by_cases reading : ∃ side, (s.streams side).isRead = true
      · obtain ⟨side, reading⟩ := reading
        cases ended : (s.streams side).ended with
        | false =>
            refine ⟨.shut side, trivial, ?_⟩
            have shut : s.next (.shut side) = s.put side { s.streams side with ended := true } := by
              simp only [next, acts]
              rfl
            rw [shut]
            exact s.rank_put (Stream.weight_end _ ended)
        | true =>
            obtain ⟨⟨line, stream⟩, found⟩ := Stream.next_of_ended reading ended
            refine ⟨.read side, trivial, ?_⟩
            have read : s.next (.read side) =
                { s.put side stream with lines := s.lines ++ line.toList } := by
              simp only [next, runs, found]
            rw [read]
            exact s.rank_put (Stream.weight_next found)
      · refine ⟨.wait, trivial, ?_⟩
        have given_up : ∀ side, (s.streams side).isRead = false := fun side =>
          Bool.eq_false_iff.mpr fun reads => reading ⟨side, reads⟩
        have wait : s.next .wait = { s with outcome := some (s.ending.outcome s.command) } := by
          simp [next, isOver, acts, ends, given_up, runs]
        rw [wait]
        exact rank_of_outcome runs _

end Reading

end LanguageHost
