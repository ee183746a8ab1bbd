import StreamServer.Bytes
import StreamServer.Fault

/-!
# Writers

A writer takes octets and keeps them.  One call may take any number of them from the front, or fail;
a call that was broken off is made again, which a writer bears only so often in a row.
-/

namespace StreamServer

/-- Something that octets are written to. -/
class Writer (ω : Type) where
  /-- Offers octets; the answer counts how many are taken from their front. -/
  offer : ω → Bytes → Except Fault Nat × ω
  /-- The octets taken so far. -/
  written : ω → Bytes
  /-- How often in a row a call can still be broken off. -/
  patience : ω → Nat
  offer_le : ∀ w data n, (offer w data).1 = .ok n → n ≤ data.length
  written_ok : ∀ w data n, (offer w data).1 = .ok n →
    written (offer w data).2 = written w ++ data.take n
  written_error : ∀ w data f, (offer w data).1 = .error f → written (offer w data).2 = written w
  patience_offer_lt : ∀ w data f, (offer w data).1 = .error f → f.isInterrupted = true →
    patience (offer w data).2 < patience w

namespace Writer

variable {ω : Type} [Writer ω]

/-- The fault of a writer that takes nothing. -/
def nothingTaken : Fault :=
  .remark .writeZero "failed to write whole buffer"

/-- Writes octets to their end, or as far as the writer goes. -/
def writeAll (w : ω) (data : Bytes) : Except Fault Unit × ω :=
  match data with
  | [] => (.ok (), w)
  | b :: rest =>
      match _answer : (offer w (b :: rest)).1 with
      | .ok 0 => (.error nothingTaken, (offer w (b :: rest)).2)
      | .ok (n + 1) => writeAll (offer w (b :: rest)).2 (rest.drop n)
      | .error f =>
          if _again : f.isInterrupted = true then writeAll (offer w (b :: rest)).2 (b :: rest)
          else (.error f, (offer w (b :: rest)).2)
termination_by (data.length, patience w)
decreasing_by
  · exact Prod.Lex.left _ _ (by simp only [List.length_drop, List.length_cons]; omega)
  · exact Prod.Lex.right _ (patience_offer_lt w _ f _answer _again)

/-- Writes one piece after the other, as long as all goes well. -/
def writeEach (w : ω) : List Bytes → Except Fault Unit × ω
  | [] => (.ok (), w)
  | piece :: rest =>
      match writeAll w piece with
      | (.ok (), w) => writeEach w rest
      | (.error f, w) => (.error f, w)

end Writer

/--
A writer that keeps everything up to a limit.  At the limit it fails, or takes nothing if it has no
fault to fail with; then it either stays as it is or, having failed once, takes everything.  A fault
that only breaks a call off comes once in any case.
-/
structure LimitedWriter where
  kept : Bytes := []
  room : Option Nat := none
  fault : Option Fault := none
  recovers : Bool := false
  failed : Bool := false
  deriving Repr, DecidableEq

namespace LimitedWriter

/-- Whether the limit is felt only once. -/
def once (w : LimitedWriter) : Bool :=
  w.recovers || w.fault.any Fault.isInterrupted

/-- What is answered at the limit. -/
def refusal (w : LimitedWriter) : Except Fault Nat :=
  match w.fault with
  | some f => .error f
  | none => .ok 0

/-- Offers octets. -/
def offer (w : LimitedWriter) (data : Bytes) : Except Fault Nat × LimitedWriter :=
  match w.room with
  | none => (.ok data.length, { w with kept := w.kept ++ data })
  | some (r + 1) =>
      let n := min (r + 1) data.length
      (.ok n, { w with kept := w.kept ++ data.take n, room := some (r + 1 - n) })
  | some 0 =>
      if w.failed && w.once then (.ok data.length, { w with kept := w.kept ++ data })
      else (w.refusal, { w with failed := true })

/-- Whether the limit is still to be felt. -/
def patience (w : LimitedWriter) : Nat :=
  if w.failed then 0 else 1

end LimitedWriter

instance : Writer LimitedWriter where
  offer := LimitedWriter.offer
  written := LimitedWriter.kept
  patience := LimitedWriter.patience
  offer_le := by
    intro w data n h
    unfold LimitedWriter.offer at h
    split at h
    · cases h; exact Nat.le_refl _
    · cases h; exact Nat.min_le_right _ _
    · split at h
      · cases h; exact Nat.le_refl _
      · unfold LimitedWriter.refusal at h
        split at h <;> cases h
        exact Nat.zero_le _
  written_ok := by
    intro w data n h
    unfold LimitedWriter.offer at h ⊢
    split at h
    · cases h; simp
    · cases h; simp
    · split at h
      · next hw => cases h; simp [hw]
      · next hw =>
          unfold LimitedWriter.refusal at h
          split at h <;> cases h
          simp [hw]
  written_error := by
    intro w data f h
    unfold LimitedWriter.offer at h ⊢
    split at h
    · cases h
    · cases h
    · split at h
      · cases h
      · next hw => simp [hw]
  patience_offer_lt := by
    intro w data f h hf
    unfold LimitedWriter.offer at h ⊢
    split at h
    · cases h
    · cases h
    · split at h
      · cases h
      · next hw =>
          have hfault : w.fault = some f := by
            unfold LimitedWriter.refusal at h
            split at h
            · next g hg => cases h; exact hg
            · cases h
          have hfresh : w.failed = false := by
            cases hd : w.failed with
            | false => rfl
            | true => simp [hd, LimitedWriter.once, hfault, hf] at hw
          simp [hfresh, LimitedWriter.patience]

end StreamServer
