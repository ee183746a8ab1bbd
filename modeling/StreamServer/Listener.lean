import StreamServer.Gate
import StreamServer.Network
import StreamServer.Settings
import StreamServer.Transport

/-!
# Listeners

A listener accepts clients at an address, through a gate.  The permit is taken before a client is
waited for, so clients who come while no permit is free wait in the backlog.
-/

namespace StreamServer

/-- Why there is no listener.  Too large a capacity is a defect of the caller rather than a failure
of the call. -/
inductive BindFailure
  | noAddress
  | refused (f : Fault)
  | overfull
  deriving Repr, DecidableEq

namespace BindFailure

/-- The fault of a text that is no address. -/
def notAnAddress : Fault :=
  .custom .invalidInput "invalid socket address syntax"

/-- What is shown to a reader. -/
def message : BindFailure → String
  | noAddress => "Failed to bind: " ++ notAnAddress.text
  | refused f => "Failed to bind: " ++ f.text
  | overfull => Gate.overflowMessage

/-- The form in which every part is named. -/
def details : BindFailure → String
  | noAddress => "Bind(" ++ notAnAddress.details ++ ")"
  | refused f => "Bind(" ++ f.details ++ ")"
  | overfull => Gate.overflowMessage

end BindFailure

/-- A listener: where it listens, its gate, who waits in the backlog, and the places of the permits of
those who were accepted, in order. -/
structure Listener where
  address : SocketAddress
  gate : Gate
  backlog : List SocketAddress := []
  accepted : List Nat := []
  deriving Repr, DecidableEq

namespace Listener

/-- The record of a new listener. -/
def boundRecord (address : SocketAddress) (capacity : Nat) : LogRecord :=
  { level := .info
    source := .listener
    message := "Listener bound"
    fields := [("address", .text address.text), ("max_connections", .number capacity)] }

/-- The record of a client who was accepted. -/
def acceptedRecord (peer : String) (available : Nat) : LogRecord :=
  { level := .debug
    source := .listener
    message := "Connection accepted"
    fields := [("peer_addr", .text peer), ("available_permits", .number available)] }

/-- Makes a listener as the settings say. -/
def bind (net : Network) (settings : ListenerSettings) : Except BindFailure Listener × Trace :=
  match SocketAddress.parse? settings.bindAddress with
  | none => (.error .noAddress, [])
  | some wanted =>
      match net.bind wanted with
      | .error f => (.error (.refused f), [])
      | .ok address =>
          let capacity := settings.maxConnections.toNat
          let trace := [Act.log (boundRecord address capacity)]
          match Gate.ofCapacity? capacity with
          | none => (.error .overfull, trace)
          | some gate => (.ok { address, gate }, trace)

/-- A client comes, if the network lets it through. -/
def knock (l : Listener) (net : Network) (peer : SocketAddress) : Except Fault Listener :=
  match net.reach peer with
  | .error f => .error f
  | .ok () => .ok { l with backlog := l.backlog ++ [peer] }

/-- One attempt to accept, which is given up if no permit is free or nobody waits. -/
def attempt (l : Listener) : Option (Nat × SocketAddress) × Listener × Trace :=
  match l.gate.step? .acquire, l.backlog with
  | some gate, peer :: rest =>
      let place := l.gate.slots.length
      match gate.step? (.letIn place) with
      | some gate =>
          (some (l.accepted.length, peer),
            { l with gate, backlog := rest, accepted := l.accepted ++ [place] },
            [.log (acceptedRecord peer.text gate.available)])
      | none => (none, l, [])
  | some gate, [] =>
      match gate.step? (.cancel l.gate.slots.length) with
      | some gate => (none, { l with gate }, [])
      | none => (none, l, [])
  | none, _ => (none, l, [])

/-- Lets an accepted client go, with its permit. -/
def release? (l : Listener) (n : Nat) : Option Listener :=
  (l.accepted[n]?).bind fun place =>
    (l.gate.step? (.giveBack place)).map fun gate => { l with gate }

end Listener

end StreamServer
