import StreamServer.Text.Utf8
import StreamServer.Transport

/-!
# Sockets

One end of a connected stream socket of the system, together with what the peer does at the other
end.  What is written arrives in order, and reading never waits: with nothing there and no end in
sight a read would block.

The two families differ in how they end.  A local socket that is given back with unread octets
resets its peer; an internet socket that was shut down before does not.  An internet socket whose
connection is gone cannot be shut down any more; a local one always can.  A reset is reported once.
-/

namespace StreamServer

/-- The family of a socket. -/
inductive SocketFamily
  | «local»
  | internet
  deriving Repr, DecidableEq

/-- One end of a connected socket.

* `incoming` are the octets of the peer that have not been read, `outgoing` those on their way to it.
* `ended` says that the peer sends nothing more, `vanished` that it has closed its end.
* `shut` says that this end has ended both directions.
* `severed` says that the connection itself is gone, `reset` that this has still to be reported, and
  `resets` that the peer has to be told.
-/
structure Socket where
  family : SocketFamily
  descriptor : Nat
  peer : Except Fault String
  handles : Nat := 1
  incoming : Bytes := []
  outgoing : Bytes := []
  ended : Bool := false
  vanished : Bool := false
  shut : Bool := false
  severed : Bool := false
  reset : Bool := false
  resets : Bool := false

namespace Socket

/-- How a peer without a path is named. -/
def unnamed : String :=
  "unix:unnamed"

/-- How a peer is named by the path of its socket.  An empty path is no name. -/
def nameOfPath (path : Bytes) : String :=
  if path = [] then unnamed else "unix:" ++ String.ofList (Utf8.decodeLossy path)

/-- A call that would have to wait. -/
def wouldWait : Fault := .system 11

/-- A call on a direction that is ended. -/
def brokenPipe : Fault := .system 32

/-- A connection that the peer has reset. -/
def resetByPeer : Fault := .system 104

/-- A shutdown of a connection that is gone. -/
def unconnected : Fault := .system 107

/-- What is there is read first, then a reset is reported, and then comes the end. -/
def receive (s : Socket) (room : Nat) : Except Fault Filled × Socket :=
  if s.incoming ≠ [] then
    (.ok (.honest (s.incoming.take room)), { s with incoming := s.incoming.drop room })
  else if s.reset then (.error resetByPeer, { s with reset := false })
  else if s.ended ∨ s.shut then (.ok (.honest []), s)
  else (.error wouldWait, s)

/-- Everything that can be written at all is taken.  A local socket notices at once that its peer has
closed, an internet socket only by the answer to what it has written. -/
def send (s : Socket) (data : Bytes) : Except Fault Nat × Socket :=
  match s.family with
  | .local =>
      if s.shut ∨ s.vanished then (.error brokenPipe, s)
      else (.ok data.length, { s with outgoing := s.outgoing ++ data })
  | .internet =>
      if s.reset then (.error resetByPeer, { s with reset := false })
      else if s.shut ∨ s.severed then (.error brokenPipe, s)
      else if s.vanished then (.ok data.length, { s with severed := true })
      else (.ok data.length, { s with outgoing := s.outgoing ++ data })

/-- Whether the connection of the socket is gone, so that it cannot be shut down. -/
def detached (s : Socket) : Bool :=
  s.family = .internet ∧ (s.severed ∨ (s.shut ∧ s.ended))

/-- Ends both directions. -/
def shutdown (s : Socket) : Except Fault Unit × Socket :=
  (if s.detached then .error unconnected else .ok (), { s with shut := true })

/-- Makes one more handle. -/
def duplicate (s : Socket) : Except Fault Unit × Socket :=
  (.ok (), { s with handles := s.handles + 1 })

/-- Gives a handle back.  With the last one the socket is closed, and octets that nobody has read
reset the peer. -/
def release (s : Socket) : Socket :=
  if s.handles ≤ 1 then
    { s with
      handles := 0
      shut := true
      incoming := []
      resets := s.incoming ≠ [] ∧ (s.family = .local ∨ ¬ s.shut) }
  else { s with handles := s.handles - 1 }

/-- Whether a read would find something, be it the end. -/
def ready (s : Socket) : Bool :=
  s.incoming ≠ [] ∨ s.reset ∨ s.ended ∨ s.shut

theorem supply_receive_le (s : Socket) (room : Nat) :
    (s.receive room).2.incoming.length ≤ s.incoming.length := by
  unfold receive
  split
  · simp
  · split
    · simp
    · split <;> simp

theorem supply_receive_lt (s : Socket) (room : Nat) (f : Filled)
    (ok : (s.receive room).1 = .ok f) (some_taken : f.taken room ≠ []) :
    (s.receive room).2.incoming.length < s.incoming.length := by
  have hroom : 0 < room := by
    rcases Nat.eq_zero_or_pos room with h | h
    · subst h
      simp [Filled.taken] at some_taken
    · exact h
  unfold receive at ok ⊢
  split
  · next h =>
      have : 0 < s.incoming.length := List.length_pos_iff.mpr h
      simp
      omega
  · next h =>
      rw [if_neg h] at ok
      split at ok
      · cases ok
      · split at ok
        · cases ok
          simp [Filled.taken, Filled.honest] at some_taken
        · cases ok

theorem receive_not_interrupted (s : Socket) (room : Nat) (f : Fault)
    (failed : (s.receive room).1 = .error f) : f.isInterrupted = false := by
  unfold receive at failed
  split at failed
  · cases failed
  · split at failed
    · cases failed
      decide
    · split at failed <;> cases failed
      decide

theorem send_not_interrupted (s : Socket) (data : Bytes) (f : Fault)
    (failed : (s.send data).1 = .error f) : f.isInterrupted = false := by
  unfold send at failed
  split at failed
  · split at failed <;> cases failed
    decide
  · split at failed
    · cases failed
      decide
    · split at failed
      · cases failed
        decide
      · split at failed <;> cases failed

theorem incoming_send (s : Socket) (data : Bytes) : (s.send data).2.incoming = s.incoming := by
  unfold send
  split
  · split <;> rfl
  · split
    · rfl
    · split
      · rfl
      · split <;> rfl

end Socket

instance : Transport Socket where
  descriptor := Socket.descriptor
  peer := Socket.peer
  receive := Socket.receive
  send := Socket.send
  shutdown := Socket.shutdown
  duplicate := Socket.duplicate
  release := Socket.release
  patience _ := 0
  supply s := s.incoming.length
  patience_receive := by
    intro s room f h again
    rw [Socket.receive_not_interrupted s room f h] at again
    cases again
  patience_send := by
    intro s data f h again
    rw [Socket.send_not_interrupted s data f h] at again
    cases again
  supply_receive_le := Socket.supply_receive_le
  supply_receive_lt := Socket.supply_receive_lt
  supply_send_le s data :=
    Nat.le_of_eq (congrArg List.length (Socket.incoming_send s data))

/-! ## The other end -/

/-- What the peer can do at its end. -/
inductive PeerStep
  | send (data : Bytes)
  | receive (room : Nat)
  | drain
  | halfClose
  | close
  | reset
  deriving Repr, DecidableEq

/-- How a stream ended for the peer: in order, or with a fault. -/
inductive StreamEnd
  | orderly
  | fault (f : Fault)
  deriving Repr, DecidableEq

/-- What a step of the peer answers. -/
inductive PeerAnswer
  | done
  | failed (f : Fault)
  | data (d : Bytes)
  | rest (d : Bytes) (e : StreamEnd)
  | gone
  deriving Repr, DecidableEq

namespace Socket

/-- How the stream goes on for the peer after what is on its way. -/
def endForPeer (s : Socket) : StreamEnd :=
  if s.resets then .fault resetByPeer
  else if s.shut then .orderly
  else .fault wouldWait

/-- A step of the peer.  A peer that has closed its end is gone. -/
def peerStep (s : Socket) (a : PeerStep) : PeerAnswer × Socket :=
  if s.vanished then (.gone, s)
  else
    match a with
    | .send data =>
        if s.shut then
          match s.family with
          | .local => (.failed brokenPipe, s)
          | .internet => (.done, s)
        else (.done, { s with incoming := s.incoming ++ data })
    | .receive room =>
        (.data (s.outgoing.take room), { s with outgoing := s.outgoing.drop room })
    | .drain => (.rest s.outgoing s.endForPeer, { s with outgoing := [] })
    | .halfClose => (.done, { s with ended := true })
    | .close =>
        (.done,
          { s with
            ended := true
            vanished := true
            outgoing := []
            severed := s.outgoing ≠ []
            reset := s.outgoing ≠ [] ∧ (s.family = .local ∨ ¬ s.ended) })
    | .reset =>
        (.done,
          { s with
            ended := true
            vanished := true
            outgoing := []
            severed := true
            reset := s.family = .local ∨ ¬ s.ended })

end Socket

end StreamServer
