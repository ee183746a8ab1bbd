import StreamServer.Bytes

/-!
# Decoding UTF-8

A string of octets is cut from left to right into *segments*.  A segment is either the encoding of
one character or an ill-formed piece: a lead octet followed by as many continuation octets as could
still have become a character, or a single octet that can begin nothing.  Every octet belongs to
exactly one segment, so the cut loses nothing.

Two readings are built on the cut.  The lossy reading shows each ill-formed piece as one
replacement character; the strict reading accepts only a text without ill-formed pieces.
-/

namespace StreamServer

namespace Utf8

/-- A piece of an octet string as the decoder sees it. -/
inductive Segment
  | scalar (c : Char) (octets : Bytes)
  | illFormed (octets : Bytes)
  deriving Repr, DecidableEq

namespace Segment

/-- The octets that a segment stands for. -/
def octets : Segment → Bytes
  | scalar _ bs => bs
  | illFormed bs => bs

/-- What is shown for a segment: its character, or the replacement character. -/
def shown : Segment → Char
  | scalar c _ => c
  | illFormed _ => '\uFFFD'

/-- The character of a well-formed segment. -/
def scalar? : Segment → Option Char
  | scalar c _ => some c
  | illFormed _ => none

end Segment

/--
A sequence that has begun and is not complete.  `due` counts the octets still missing; the next of
them must lie between `low` and `high`, which shuts out overlong forms, surrogates and values beyond
the last code point.
-/
structure Partial where
  taken : Bytes
  value : Nat
  due : Nat
  low : UInt8
  high : UInt8
  deriving Repr, DecidableEq

namespace Partial

/-- The sequence that a lead octet begins. -/
def ofLead? (b : UInt8) : Option Partial :=
  if 0xC2 ≤ b && b ≤ 0xDF then some ⟨[b], b.toNat - 0xC0, 1, 0x80, 0xBF⟩
  else if b = 0xE0 then some ⟨[b], 0, 2, 0xA0, 0xBF⟩
  else if b = 0xED then some ⟨[b], 0xD, 2, 0x80, 0x9F⟩
  else if 0xE1 ≤ b && b ≤ 0xEF then some ⟨[b], b.toNat - 0xE0, 2, 0x80, 0xBF⟩
  else if b = 0xF0 then some ⟨[b], 0, 3, 0x90, 0xBF⟩
  else if b = 0xF4 then some ⟨[b], 4, 3, 0x80, 0x8F⟩
  else if 0xF1 ≤ b && b ≤ 0xF3 then some ⟨[b], b.toNat - 0xF0, 3, 0x80, 0xBF⟩
  else none

/-- Whether an octet continues the sequence. -/
def accepts (p : Partial) (b : UInt8) : Bool :=
  p.low ≤ b && b ≤ p.high

/-- The sequence with one more octet; all later octets range over every continuation octet. -/
def push (p : Partial) (b : UInt8) : Partial :=
  ⟨p.taken ++ [b], p.value * 64 + b.toNat % 64, p.due - 1, 0x80, 0xBF⟩

/-- The segment of a completed sequence. -/
def complete (p : Partial) : Segment :=
  .scalar (Char.ofNat p.value) p.taken

end Partial

/-- Reads an octet outside any sequence: the segments it closes and the sequence it begins. -/
def start (b : UInt8) : List Segment × Option Partial :=
  if b < 0x80 then ([.scalar (Char.ofNat b.toNat) [b]], none)
  else
    match Partial.ofLead? b with
    | some p => ([], some p)
    | none => ([.illFormed [b]], none)

/-- Cuts octets into segments, given the sequence that is open before them. -/
def segmentsFrom : Option Partial → Bytes → List Segment
  | none, [] => []
  | some p, [] => [.illFormed p.taken]
  | none, b :: rest =>
      (start b).1 ++ segmentsFrom (start b).2 rest
  | some p, b :: rest =>
      if p.accepts b then
        if p.due = 1 then (p.push b).complete :: segmentsFrom none rest
        else segmentsFrom (some (p.push b)) rest
      else
        .illFormed p.taken :: ((start b).1 ++ segmentsFrom (start b).2 rest)

/-- The segments of an octet string, left to right. -/
def segments (bs : Bytes) : List Segment :=
  segmentsFrom none bs

/-- The characters of an octet string, each ill-formed piece shown as U+FFFD. -/
def decodeLossy (bs : Bytes) : List Char :=
  (segments bs).map Segment.shown

/-- The characters of an octet string, if all of it is well-formed. -/
def decode? (bs : Bytes) : Option (List Char) :=
  (segments bs).mapM Segment.scalar?

/-- What the opening octet contributes, whether to a closed segment or to the open sequence. -/
theorem start_octets (b : UInt8) :
    (start b).1.flatMap Segment.octets ++ ((start b).2.elim [] Partial.taken) = [b] := by
  unfold start
  split
  · rfl
  · split
    · next p h =>
        unfold Partial.ofLead? at h
        repeat' split at h
        all_goals first | (cases h; rfl) | cases h
    · rfl

/-- The segments of an octet string put together again are that octet string. -/
theorem segmentsFrom_octets (open? : Option Partial) (bs : Bytes) :
    (segmentsFrom open? bs).flatMap Segment.octets = open?.elim [] Partial.taken ++ bs := by
  induction bs generalizing open? with
  | nil => cases open? <;> simp [segmentsFrom, Segment.octets]
  | cons b rest ih =>
      have hb := start_octets b
      cases open? with
      | none =>
          simp only [segmentsFrom, List.flatMap_append, ih, Option.elim_none, List.nil_append]
          rw [← List.append_assoc, hb]
          rfl
      | some p =>
          simp only [segmentsFrom, Option.elim_some]
          split
          · split
            · simp [Partial.complete, Partial.push, Segment.octets, ih]
            · simp [Partial.push, ih]
          · simp only [List.flatMap_cons, Segment.octets, List.flatMap_append, ih]
            rw [← List.append_assoc (List.flatMap _ _), hb]
            rfl

theorem segments_octets (bs : Bytes) : (segments bs).flatMap Segment.octets = bs := by
  simp [segments, segmentsFrom_octets]

end Utf8

end StreamServer
