import StreamServer.Proofs.Attempts
import StreamServer.Transport.Script

/-!
# The first answer to a read

A read hands its buffer out again and again while the transport breaks the call
off.  The first answer that is for good decides it, and the transport may say in
that answer whatever it likes: the count that it claims is cut to the room of
the buffer, so what is returned is a beginning of the buffer and nothing else.

The buffer is as large as was asked for, up to a bound; an error names what was
asked for, not what fitted the bound.
-/

namespace StreamServer

namespace Filled

theorem length_buffer
    (f : Filled) (room : Nat) :
    (f.buffer room).length = room := by
  rw [buffer, List.length_append, List.length_take, List.length_replicate]
  omega

/-- Whatever may stand in a buffer is what some answer leaves there. -/
theorem buffer_of_length
    {bs : Bytes} {room : Nat}
    (fits : bs.length = room)
    (claimed : Nat) :
    Filled.buffer ⟨claimed, bs⟩ room = bs := by
  subst fits
  simp [buffer]

theorem length_taken
    (f : Filled) (room : Nat) :
    (f.taken room).length = min f.claimed room := by
  rw [taken, List.length_take, length_buffer]
  exact Nat.min_eq_left (Nat.min_le_right _ _)

end Filled

namespace Connection

open Attempts

variable {σ : Type} [Transport σ]

/-- A read on an open connection is its loop, the last answer read, and an event
if that is a success. -/
theorem read_of_settledAfter
    {c : Connection} {h : Handle}
    (live : c.state = .live)
    (held : c.handle = some h)
    {t : σ} {wanted k : Nat}
    (settled :
      SettledAfter
        (fun t : σ => Transport.receive t (min wanted maxReadSize)) t k) :
    let room := min wanted maxReadSize
    let ask := fun t : σ => Transport.receive t room
    let result := c.readResult wanted (answerAfter ask t k)
    c.read t wanted =
      ⟨result, leftBy ask t (k + 1),
        ((List.range (k + 1)).map fun i =>
          .call h (.receive room (answerAfter ask t i))) ++
          c.received result⟩ := by
  have hloop := (repeats_receiveThrough h _).eq_of_settledAfter settled
  simp only [read, live, held, hloop]

/-- What is returned is never more than was asked for, nor more than the bound. -/
theorem length_le_of_read
    {c : Connection} {t : σ} {wanted : Nat} {data : Bytes}
    (done : (c.read t wanted).result = .ok data) :
    data.length ≤ wanted ∧ data.length ≤ maxReadSize := by
  have hle := (read_ok done).1
  exact ⟨Nat.le_trans hle (Nat.min_le_left _ _),
    Nat.le_trans hle (Nat.min_le_right _ _)⟩

/--
**A read returns what the first answer for good has left in the buffer**, for any
connection that is open, however much is asked for, and any transport, whatever
it claims.

* There is an answer for good.  If it comes after `k` others, the read makes
  `k + 1` calls, each with a buffer of just as many octets as were asked for, but
  no more than `maxReadSize`.
* If that answer claims a number of octets, so many from the front of the buffer
  are returned, or all of it if the claim goes beyond; the buffer has all its
  room in octets, whatever they are.  If the transport would block, nothing is
  returned.  Any other fault is a failed read, with all that was asked for, the
  peer, and that very fault.
* So what is returned is never longer than what was asked for, nor than
  `maxReadSize`.
-/
theorem read_returns_first_fill
    {c : Connection} {h : Handle}
    (live : c.state = .live)
    (held : c.handle = some h)
    (t : σ) (wanted : Nat) :
    let o := c.read t wanted
    let room := min wanted maxReadSize
    let ask := fun t : σ => Transport.receive t room
    (∃ k, SettledAfter ask t k) ∧
    (∀ k, SettledAfter ask t k →
      o.trace.calls =
        (List.range (k + 1)).map
          (fun i => (h, .receive room (answerAfter ask t i))) ∧
      o.transport = leftBy ask t (k + 1) ∧
      o.result =
        match answerAfter ask t k with
        | .ok f => .ok ((f.buffer room).take (min f.claimed room))
        | .error f =>
            if f.kind = .wouldBlock then .ok []
            else .error (.readFailed wanted c.origin f)) ∧
    (∀ f : Filled,
      (f.buffer room).length = room ∧
      ((f.buffer room).take (min f.claimed room)).length =
        min f.claimed room) ∧
    (∀ bs claimed,
      bs.length = room → Filled.buffer ⟨claimed, bs⟩ room = bs) ∧
    (∀ data,
      o.result = .ok data →
        data.length ≤ wanted ∧ data.length ≤ maxReadSize) := by
  intro o room ask
  refine ⟨exists_settledAfter_receive t room, ?answers,
    fun f => ⟨f.length_buffer room, f.length_taken room⟩,
    fun bs claimed fits => Filled.buffer_of_length fits claimed,
    fun data done => length_le_of_read done⟩
  case answers =>
    intro k settled
    have hread := read_of_settledAfter live held settled
    refine ⟨?calls, congrArg Outcome.transport hread, ?result⟩
    case calls =>
      have hcalls := congrArg (fun o => Trace.calls o.trace) hread
      refine hcalls.trans ?_
      rw [Trace.calls_append, calls_received, List.append_nil,
        Trace.calls_map]
    case result =>
      refine (congrArg Outcome.result hread).trans ?_
      show c.readResult wanted (answerAfter ask t k) = _
      cases answerAfter ask t k with
      | ok f => rfl
      | error f => simp only [readResult, Fault.isWouldBlock, beq_iff_eq]

/-- Broken off twice, and then a claim far beyond the buffer: all of the buffer
is returned, with what the transport has not written. -/
theorem read_returns_first_fill_claimed_beyond :
    let c : Connection :=
      { handle := some ⟨0, 0⟩
        id := 3
        origin := "a"
        state := .live
        settings := {} }
    let t : Script :=
      { descriptor := 3
        peer := .ok "a"
        reads :=
          [.fault (.system 4), .fault (.bare .interrupted),
            .chunk [7, 8] (some 1000)] }
    let ask := fun t : Script => Transport.receive t 4
    SettledAfter ask t 2 ∧
    (c.read t 4).result = .ok [7, 8, 0, 0] ∧
    (c.read t 4).trace.calls =
      [(⟨0, 0⟩, .receive 4 (.error (.system 4))),
        (⟨0, 0⟩, .receive 4 (.error (.bare .interrupted))),
        (⟨0, 0⟩, .receive 4 (.ok ⟨1000, [7, 8]⟩))] := by
  intro c t ask
  have settled : SettledAfter ask t 2 := ⟨by decide, by decide⟩
  obtain ⟨-, hanswers, -⟩ :=
    read_returns_first_fill (c := c) rfl rfl t 4
  obtain ⟨hcalls, -, hresult⟩ := hanswers 2 settled
  exact ⟨settled, hresult, hcalls⟩

end Connection

end StreamServer
