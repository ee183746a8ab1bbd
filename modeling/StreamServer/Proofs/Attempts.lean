import StreamServer.Proofs.Transfer

/-!
# Calls that are made again

A call that was broken off is made again, on what it has left, until it is
answered for good.  What would be answered to one call after another is a
sequence, and the first answer in it that is for good decides everything about
the loop: how many calls it makes, what they leave, and what comes of them.

This is said once for any call, and then of the loops behind a read and a write.
-/

namespace StreamServer

/-- Calls on one handle are seen in a trace as they are made. -/
theorem Trace.calls_map
    {ι : Type} (h : Handle) (made : ι → Call) (is : List ι) :
    Trace.calls (is.map fun i => .call h (made i)) =
      is.map fun i => (h, made i) := by
  rw [Trace.calls, List.filterMap_map]
  exact congrFun List.filterMap_eq_map is

namespace Attempts

variable {σ α : Type}

/-- Whether an answer asks for the call to be made again. -/
def isBrokenOff : Except Fault α → Bool
  | .ok _ => false
  | .error f => f.isInterrupted

section Answers

variable (ask : σ → Except Fault α × σ)

/-- What a number of calls leave. -/
def leftBy (t : σ) : Nat → σ
  | 0 => t
  | k + 1 => leftBy (ask t).2 k

/-- What is answered to a call after a number of others. -/
def answerAfter (t : σ) (k : Nat) : Except Fault α :=
  (ask (leftBy ask t k)).1

/-- The first answer for good comes after a number of others. -/
structure SettledAfter (t : σ) (k : Nat) : Prop where
  last : isBrokenOff (answerAfter ask t k) = false
  before : ∀ i < k, isBrokenOff (answerAfter ask t i) = true

end Answers

section Loops

variable {ask : σ → Except Fault α × σ} {t : σ} {k : Nat}

theorem SettledAfter.zero_iff :
    SettledAfter ask t 0 ↔ isBrokenOff (ask t).1 = false := by
  constructor
  · intro settled
    exact settled.last
  · intro hlast
    exact ⟨hlast, fun i hi => absurd hi (Nat.not_lt_zero i)⟩

/-- An answer that breaks the call off is one more before the first for good. -/
theorem SettledAfter.succ_iff :
    SettledAfter ask t (k + 1) ↔
      isBrokenOff (ask t).1 = true ∧ SettledAfter ask (ask t).2 k := by
  constructor
  · intro settled
    refine ⟨settled.before 0 (Nat.zero_lt_succ k), settled.last, ?_⟩
    intro i hi
    exact settled.before (i + 1) (Nat.succ_lt_succ hi)
  · rintro ⟨hbroken, settled⟩
    refine ⟨settled.last, ?_⟩
    intro i hi
    cases i with
    | zero => exact hbroken
    | succ i => exact settled.before i (Nat.lt_of_succ_lt_succ hi)

/-- If calls can be broken off only so often, there is an answer for good. -/
theorem exists_settledAfter
    (patience : σ → Nat)
    (tires : ∀ t f, (ask t).1 = .error f → f.isInterrupted = true →
      patience (ask t).2 < patience t)
    (t : σ) :
    ∃ k, SettledAfter ask t k := by
  induction hp : patience t using Nat.strongRecOn generalizing t with
  | ind p ih =>
      cases hbroken : isBrokenOff (ask t).1 with
      | false => exact ⟨0, SettledAfter.zero_iff.mpr hbroken⟩
      | true =>
          have hless : patience (ask t).2 < p := by
            cases answered : (ask t).1 with
            | ok a =>
                rw [answered] at hbroken
                cases hbroken
            | error f =>
                rw [answered] at hbroken
                exact hp ▸ tires t f answered hbroken
          obtain ⟨k, settled⟩ := ih _ hless _ rfl
          exact ⟨k + 1, SettledAfter.succ_iff.mpr ⟨hbroken, settled⟩⟩

/-- A loop makes a call, notes the answer, and goes on as long as the call is
broken off. -/
structure Repeats
    (ask : σ → Except Fault α × σ)
    (note : Except Fault α → Act)
    (loop : σ → Outcome σ (Except Fault α)) : Prop where
  settled : ∀ t, isBrokenOff (ask t).1 = false →
    loop t = ⟨(ask t).1, (ask t).2, [note (ask t).1]⟩
  again : ∀ t, isBrokenOff (ask t).1 = true →
    loop t = (loop (ask t).2).after [note (ask t).1]

/-- A loop ends with the first answer for good. -/
theorem Repeats.eq_of_settledAfter
    {note : Except Fault α → Act}
    {loop : σ → Outcome σ (Except Fault α)}
    (repeats : Repeats ask note loop)
    (settled : SettledAfter ask t k) :
    loop t =
      ⟨answerAfter ask t k, leftBy ask t (k + 1),
        (List.range (k + 1)).map fun i => note (answerAfter ask t i)⟩ := by
  induction k generalizing t with
  | zero => exact repeats.settled t settled.last
  | succ k ih =>
      obtain ⟨hbroken, hrest⟩ := SettledAfter.succ_iff.mp settled
      rw [repeats.again t hbroken, ih hrest,
        List.range_succ_eq_map (n := k + 1), List.map_cons, List.map_map]
      rfl

end Loops

end Attempts

namespace Connection

open Attempts

variable {σ : Type} [Transport σ]

/-- A transport does not break reads off for ever. -/
theorem exists_settledAfter_receive
    (t : σ) (room : Nat) :
    ∃ k, SettledAfter (fun t : σ => Transport.receive t room) t k :=
  exists_settledAfter Transport.patience
    (fun u f => Transport.patience_receive u room f) t

/-- A transport does not break writes off for ever. -/
theorem exists_settledAfter_send
    (t : σ) (data : Bytes) :
    ∃ k, SettledAfter (fun t : σ => Transport.send t data) t k :=
  exists_settledAfter Transport.patience
    (fun u f => Transport.patience_send u data f) t

/-- The loop of a read makes its call until it is answered for good. -/
theorem repeats_receiveThrough
    (h : Handle) (room : Nat) :
    Repeats
      (fun t : σ => Transport.receive t room)
      (fun answer => .call h (.receive room answer))
      (fun t => receiveThrough h t room) := by
  constructor
  · intro t hlast
    rw [receiveThrough]
    split
    · next f answered => rw [answered]
    · next f answered =>
        rw [answered] at hlast ⊢
        simp [show f.isInterrupted = false from hlast]
  · intro t hbroken
    rw [receiveThrough]
    split
    · next f answered =>
        rw [answered] at hbroken
        cases hbroken
    · next f answered =>
        rw [answered] at hbroken
        rw [dif_pos (show f.isInterrupted = true from hbroken), answered]

/-- The loop of a write makes its call until it is answered for good. -/
theorem repeats_sendThrough
    (h : Handle) (data : Bytes) :
    Repeats
      (fun t : σ => Transport.send t data)
      (fun answer => .call h (.send data answer))
      (fun t => sendThrough h t data) := by
  constructor
  · intro t hlast
    rw [sendThrough]
    split
    · next n answered => rw [answered]
    · next f answered =>
        rw [answered] at hlast ⊢
        simp [show f.isInterrupted = false from hlast]
  · intro t hbroken
    rw [sendThrough]
    split
    · next n answered =>
        rw [answered] at hbroken
        cases hbroken
    · next f answered =>
        rw [answered] at hbroken
        rw [dif_pos (show f.isInterrupted = true from hbroken), answered]

end Connection

end StreamServer
