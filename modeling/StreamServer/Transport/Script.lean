import StreamServer.Transport

/-!
# Scripted transports

A transport that answers from prepared lists, one list for each kind of call.  A list that is used up
leaves a default: nothing to read, everything written, shutdown and duplication without fault.
-/

namespace StreamServer

/-- A prepared answer to a read: a fault, or octets with a count that may be wrong. -/
inductive ReadAnswer
  | fault (f : Fault)
  | chunk (data : Bytes) (claim : Option Nat)
  deriving Repr, DecidableEq

namespace ReadAnswer

/-- The octets of an answer. -/
def octets : ReadAnswer → Bytes
  | fault _ => []
  | chunk data _ => data

end ReadAnswer

/-- A transport with prepared answers.  `leftover` are the octets of an answer already begun. -/
structure Script where
  descriptor : Nat
  peer : Except Fault String
  leftover : Bytes := []
  reads : List ReadAnswer := []
  writes : List (Except Fault Nat) := []
  shutdowns : List (Option Fault) := []
  duplicates : List (Option Fault) := []

namespace Script

/-- The answer to a read. -/
def receive (s : Script) (room : Nat) : Except Fault Filled × Script :=
  if s.leftover ≠ [] then
    (.ok (.honest (s.leftover.take room)), { s with leftover := s.leftover.drop room })
  else
    match s.reads with
    | [] => (.ok (.honest []), s)
    | .fault f :: rest => (.error f, { s with reads := rest })
    | .chunk data claim :: rest =>
        (.ok ⟨claim.getD (data.take room).length, data.take room⟩,
          { s with leftover := data.drop room, reads := rest })

/-- The answer to a write. -/
def send (s : Script) (data : Bytes) : Except Fault Nat × Script :=
  match s.writes with
  | [] => (.ok data.length, s)
  | answer :: rest => (answer, { s with writes := rest })

/-- A prepared answer that is a fault or none. -/
def answer : Option Fault → Except Fault Unit
  | some f => .error f
  | none => .ok ()

/-- The answer to a shutdown. -/
def shutdown (s : Script) : Except Fault Unit × Script :=
  match s.shutdowns with
  | [] => (.ok (), s)
  | a :: rest => (answer a, { s with shutdowns := rest })

/-- The answer to a duplication. -/
def duplicate (s : Script) : Except Fault Unit × Script :=
  match s.duplicates with
  | [] => (.ok (), s)
  | a :: rest => (answer a, { s with duplicates := rest })

/-- How many prepared answers to reads and writes are left. -/
def patience (s : Script) : Nat :=
  s.reads.length + s.writes.length

/-- The octets left over, and for every prepared answer its octets and one more. -/
def supply (s : Script) : Nat :=
  s.leftover.length + s.reads.foldr (fun a n => a.octets.length + 1 + n) 0

theorem supply_receive_le (s : Script) (room : Nat) : supply (s.receive room).2 ≤ supply s := by
  unfold receive
  split
  · simp [supply]
  · split
    · simp
    · simp_all [supply]
    · next data claim rest h =>
        simp_all [supply, ReadAnswer.octets]
        omega

theorem supply_receive_lt (s : Script) (room : Nat) (f : Filled)
    (ok : (s.receive room).1 = .ok f) (some_taken : f.taken room ≠ []) :
    supply (s.receive room).2 < supply s := by
  have hroom : 0 < room := by
    rcases Nat.eq_zero_or_pos room with h | h
    · subst h
      simp [Filled.taken] at some_taken
    · exact h
  unfold receive at ok ⊢
  split
  · next h =>
      have : 0 < s.leftover.length := List.length_pos_iff.mpr h
      simp [supply]
      omega
  · next h =>
      rw [if_neg h] at ok
      split
      · next hr =>
          simp only [hr, Except.ok.injEq] at ok
          subst ok
          simp [Filled.taken, Filled.honest] at some_taken
      · next hr => simp [hr] at ok
      · next data claim rest hr =>
          simp only [supply, hr, ReadAnswer.octets, List.foldr_cons, List.length_drop]
          omega

end Script

instance : Transport Script where
  descriptor := Script.descriptor
  peer := Script.peer
  receive := Script.receive
  send := Script.send
  shutdown := Script.shutdown
  duplicate := Script.duplicate
  release := id
  patience := Script.patience
  supply := Script.supply
  patience_receive := by
    intro s room f h _
    unfold Script.receive at h ⊢
    split
    · next hl => simp [hl] at h
    · next hl =>
        rw [if_neg hl] at h
        split <;> simp_all [Script.patience]
  patience_send := by
    intro s data f h _
    unfold Script.send at h ⊢
    split <;> simp_all [Script.patience]
  supply_receive_le := Script.supply_receive_le
  supply_receive_lt := Script.supply_receive_lt
  supply_send_le := by
    intro s data
    unfold Script.send
    split <;> simp [Script.supply]

end StreamServer
