import StreamServer.Bytes
import StreamServer.Event
import StreamServer.Fault
import StreamServer.Log

/-!
# Transports

A transport is what a connection reads from and writes to.  It is given by its state and by what each
call on it answers; it may answer anything, even more octets than it was offered room for.  Two
measures bound how long it can keep a caller busy: `patience` counts how often it can still break a
call off, `supply` bounds what it can still deliver.  Every loop over a transport ends by one of them.

Calls are made through handles.  A handle is named by the line it belongs to and by a serial number:
the first handle of a line has the number zero, every duplicate the next.

What an operation does is told by a *trace*: the calls it makes, the events it emits and the log
records it writes, in order.
-/

namespace StreamServer

/-- What a transport puts into a buffer, and how many octets it says that it has put there. -/
structure Filled where
  claimed : Nat
  stored : Bytes
  deriving Repr, DecidableEq

namespace Filled

/-- The octets of a buffer with the given room: those stored, then zeros. -/
def buffer (f : Filled) (room : Nat) : Bytes :=
  f.stored.take room ++ List.replicate (room - f.stored.length) 0

/-- What is taken from the buffer: as much as is claimed, but never more than there is. -/
def taken (f : Filled) (room : Nat) : Bytes :=
  (f.buffer room).take (min f.claimed room)

/-- An honest answer: exactly the octets that are stored. -/
def honest (bs : Bytes) : Filled :=
  ⟨bs.length, bs⟩

end Filled

/-- What can be called on the two ends of a byte stream. -/
class Transport (σ : Type) where
  /-- The number that the system knows the transport by. -/
  descriptor : σ → Nat
  /-- Who is at the other end. -/
  peer : σ → Except Fault String
  /-- Reads into a buffer with the given room. -/
  receive : σ → Nat → Except Fault Filled × σ
  /-- Offers octets; the answer counts how many are taken from their front. -/
  send : σ → Bytes → Except Fault Nat × σ
  /-- Ends both directions. -/
  shutdown : σ → Except Fault Unit × σ
  /-- Makes one more handle. -/
  duplicate : σ → Except Fault Unit × σ
  /-- Gives a handle back. -/
  release : σ → σ
  /-- How often a call can still be broken off. -/
  patience : σ → Nat
  /-- A bound on what can still be delivered. -/
  supply : σ → Nat
  patience_receive : ∀ t room f, (receive t room).1 = .error f → f.isInterrupted = true →
    patience (receive t room).2 < patience t
  patience_send : ∀ t data f, (send t data).1 = .error f → f.isInterrupted = true →
    patience (send t data).2 < patience t
  supply_receive_le : ∀ t room, supply (receive t room).2 ≤ supply t
  supply_receive_lt : ∀ t room f, (receive t room).1 = .ok f → f.taken room ≠ [] →
    supply (receive t room).2 < supply t
  supply_send_le : ∀ t data, supply (send t data).2 ≤ supply t

/-- A handle: the line it belongs to and its serial number there. -/
structure Handle where
  line : Nat
  serial : Nat
  deriving Repr, DecidableEq

namespace Handle

/-- How a handle is shown: its line, with a mark on every duplicate. -/
def label (h : Handle) : String :=
  toString h.line ++ (if h.serial = 0 then "" else "'")

end Handle

/-- A call on a transport with what was answered. -/
inductive Call
  | peer (answer : Except Fault String)
  | receive (room : Nat) (answer : Except Fault Filled)
  | send (data : Bytes) (answer : Except Fault Nat)
  | shutdown (answer : Except Fault Unit)
  | duplicate (answer : Except Fault Unit)
  | release

/-- Something that an operation does, for others to see. -/
inductive Act
  | call (on : Handle) (c : Call)
  | emit (e : Event)
  | log (r : LogRecord)
  | deregister (id : Nat)
  | returnPermit

/-- What an operation does, in order. -/
abbrev Trace := List Act

namespace Trace

/-- The events of a trace, in order. -/
def events (t : Trace) : List Event :=
  t.filterMap fun
    | .emit e => some e
    | _ => none

/-- The calls of a trace with their handles, in order. -/
def calls (t : Trace) : List (Handle × Call) :=
  t.filterMap fun
    | .call h c => some (h, c)
    | _ => none

theorem events_append (s t : Trace) : events (s ++ t) = events s ++ events t := by
  simp [events]

theorem calls_append (s t : Trace) : calls (s ++ t) = calls s ++ calls t := by
  simp [calls]

end Trace

/-- The result of an operation over a transport, the transport after it, and what it did. -/
structure Outcome (σ α : Type) where
  result : α
  transport : σ
  trace : Trace

namespace Outcome

variable {σ α : Type}

/-- The outcome with something done before it. -/
def after (before : Trace) (o : Outcome σ α) : Outcome σ α :=
  { o with trace := before ++ o.trace }

end Outcome

end StreamServer
