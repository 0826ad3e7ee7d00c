import LanguageHost.Error
import LanguageHost.Protocol.Message
import LanguageHost.Text.Blank

/-!
Frames on the wire: a header with the length of the body, an empty line, the body. The decoder keeps
what it has not used. A bad header stays in front of it; a body that is no message is passed over.
-/
namespace LanguageHost

/-- What is wrong with a header. -/
inductive FrameError where
  | notUtf8
  | badLength (text : String)
  | noLength
  | tooLong (length : Nat)
deriving DecidableEq, Repr

def FrameError.error : FrameError → Error
  | .notUtf8 => .protocol "non UTF-8 message header"
  | .badLength text => .protocol ("invalid Content-Length: " ++ text)
  | .noLength => .protocol "missing Content-Length header"
  | .tooLong length => .protocol ("frame of " ++ toString length ++ " bytes exceeds limit")

namespace Frame

/-- The longest body that is taken. -/
def lengthLimit : Nat := 64 * 1024 * 1024

/-- A body with its header. -/
def encode (body : Octets) : Octets :=
  Utf8.ofString ("Content-Length: " ++ toString body.length ++ "\r\n\r\n") ++ body

/-- How many octets stand in front of the first empty line, behind `passed` that are known to. -/
def headerEnd? (passed : Nat) : Octets → Option Nat
  | 13 :: 10 :: 13 :: 10 :: _ => some passed
  | _ :: rest => headerEnd? (passed + 1) rest
  | [] => none

theorem headerEnd?_bound {passed n : Nat} {bs : Octets} (h : headerEnd? passed bs = some n) :
    n + 4 ≤ passed + bs.length := by
  fun_induction headerEnd? passed bs with
  | case1 passed rest =>
    cases h
    simp only [List.length_cons]
    omega
  | case2 passed b rest _ ih =>
    have := ih h
    simp only [List.length_cons]
    omega
  | case3 => cases h

/-- The octets before and after the first empty line. -/
def cutHeader? (bs : Octets) : Option (Octets × Octets) :=
  (headerEnd? 0 bs).map fun n => (bs.take n, bs.drop (n + 4))

theorem cutHeader?_shorter {bs front rest : Octets} (h : cutHeader? bs = some (front, rest)) :
    rest.length + 4 ≤ bs.length := by
  obtain ⟨n, ends, parts⟩ := Option.map_eq_some_iff.mp h
  cases parts
  have := headerEnd?_bound ends
  rw [List.length_drop]
  omega

def headerLines : List Char → List (List Char)
  | '\r' :: '\n' :: rest => [] :: headerLines rest
  | c :: rest =>
    match headerLines rest with
    | [] => [[c]]
    | line :: lines => (c :: line) :: lines
  | [] => [[]]

/-- Digits, with a plus sign in front or without. -/
def length? (cs : List Char) : Option Nat :=
  let digits := match cs with
    | '+' :: rest => rest
    | _ => cs
  if digits.isEmpty ∨ !digits.all Text.isDigit then none
  else
    let n := Text.numeral 10 digits
    if n ≤ 0xffffffffffffffff then some n else none

/-- The text of the length that a line gives, if that is what the line is for. -/
def lengthText? (line : List Char) : Option (List Char) :=
  match Text.cut? ':' line with
  | none => none
  | some (name, value) =>
    if (Text.trimmed name).map Text.asciiLower = "content-length".toList then
      some (Text.trimmed value)
    else none

/-- The last length among the lines. Every one that is given has to be a number. -/
def lastLength (found : Option Nat) : List (List Char) → Except FrameError (Option Nat)
  | [] => .ok found
  | line :: lines =>
    match lengthText? line with
    | none => lastLength found lines
    | some text =>
      match length? text with
      | none => .error (.badLength (String.ofList text))
      | some n => lastLength (some n) lines

/-- The length of the body that a header announces. -/
def bodyLength (header : Octets) : Except FrameError Nat :=
  match Utf8.decode header with
  | none => .error .notUtf8
  | some cs => do
    match ← lastLength none (headerLines cs) with
    | none => .error .noLength
    | some n => if lengthLimit < n then .error (.tooLong n) else .ok n

end Frame

structure Decoder where
  /-- the length of the body whose header is already taken off -/
  pending : Option Nat
  buffer : Octets
deriving DecidableEq, Repr

namespace Decoder

def empty : Decoder := ⟨none, []⟩

def push (d : Decoder) (bs : Octets) : Decoder := { d with buffer := d.buffer ++ bs }

/-- How much there is to do: it falls with every header and every body taken off. -/
def size (d : Decoder) : Nat := 2 * d.buffer.length + if d.pending.isSome then 1 else 0

/-- Takes a header off, if one is needed and complete. -/
def header (d : Decoder) : Except FrameError Decoder :=
  match d.pending with
  | some _ => .ok d
  | none =>
    match Frame.cutHeader? d.buffer with
    | none => .ok d
    | some (front, rest) => do .ok ⟨some (← Frame.bodyLength front), rest⟩

/-- Takes a body off, if it is complete. -/
def body? (d : Decoder) : Option (Octets × Decoder) :=
  match d.pending with
  | none => none
  | some n =>
    if n ≤ d.buffer.length then some (d.buffer.take n, ⟨none, d.buffer.drop n⟩) else none

theorem header_size {d d' : Decoder} (h : d.header = .ok d') : d'.size ≤ d.size := by
  unfold header at h
  split at h
  · simp at h; simp [h]
  · next hp =>
    split at h
    · simp at h; simp [h]
    · next front rest hc =>
      have := Frame.cutHeader?_shorter hc
      cases hb : Frame.bodyLength front with
      | error e => simp [hb, bind, Except.bind] at h
      | ok n =>
        simp [hb, bind, Except.bind] at h
        subst h
        simp [size, hp]; omega

theorem body?_size {d rest : Decoder} {body : Octets} (h : d.body? = some (body, rest)) :
    rest.size < d.size := by
  unfold body? at h
  split at h
  · simp at h
  · next n hn =>
    split at h
    · simp only [Option.some.injEq, Prod.mk.injEq] at h
      obtain ⟨-, rfl⟩ := h
      simp only [size, hn, List.length_drop, Option.isSome_none, Option.isSome_some,
        Bool.false_eq_true, if_true, if_false]
      omega
    · simp at h

/-- What comes next on the wire, and the decoder after it. -/
inductive Step where
  /-- more octets are needed -/
  | wait (rest : Decoder)
  /-- a bad header is in front -/
  | fault (e : FrameError) (rest : Decoder)
  | message (m : Message) (rest : Decoder)

/-- The next message. -/
def next (d : Decoder) : Step :=
  match hd : d.header with
  | .error e => .fault e d
  | .ok d' =>
    match hb : d'.body? with
    | none => .wait d'
    | some (body, rest) =>
      have : rest.size < d.size := Nat.lt_of_lt_of_le (body?_size hb) (header_size hd)
      match Message.ofBody? body with
      | some m => .message m rest
      | none => rest.next
termination_by d.size

theorem next_size {d rest : Decoder} {m : Message} (h : d.next = .message m rest) :
    rest.size < d.size := by
  fun_induction next d with
  | case1 => simp at h
  | case2 => simp at h
  | case3 d d' hd body rest' hb hlt m' hm => simp at h; simpa [← h.2] using hlt
  | case4 d d' hd body rest' hb hlt hm ih => exact Nat.lt_trans (ih h) hlt

/-- All messages that are complete, up to the first bad header. -/
structure Batch where
  messages : List Message
  fault : Option FrameError
  rest : Decoder

def drain (d : Decoder) : Batch :=
  match h : d.next with
  | .wait rest => ⟨[], none, rest⟩
  | .fault e rest => ⟨[], some e, rest⟩
  | .message m rest =>
    have : rest.size < d.size := next_size h
    let b := drain rest
    { b with messages := m :: b.messages }
termination_by d.size

end Decoder

end LanguageHost
