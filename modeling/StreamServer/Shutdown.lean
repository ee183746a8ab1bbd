import StreamServer.Transport

/-!
# Shutdown

A shutdown is a flag that is raised once, and a message to everyone who listens when it is sent.
Both are reached through handles, which can be duplicated and given back.  Triggering it takes two
steps, between which anything else can happen: the flag is raised, and only whoever raised it sends
the message.

The channel keeps the last message alone.  A listener who has missed more than that is told how
much, and goes on with the last one.
-/

namespace StreamServer

/-- A shutdown with those who hold it and those who listen to it.  Handles and listeners are named by
their places; a place is never used again.  `firing` are the handles through which the flag has been
raised, but not yet the message sent.  A listener is given by the number of messages behind it. -/
structure Shutdown where
  handles : List Bool := [true]
  triggered : Bool := false
  firing : List Nat := []
  sent : Nat := 0
  listeners : List (Option Nat) := []
  deriving Repr, DecidableEq

/-- What a listener finds. -/
inductive Reception
  | signal
  | lagged (missed : Nat)
  | empty
  | closed
  deriving Repr, DecidableEq

/-- What can happen to a shutdown. -/
inductive ShutdownStep
  | subscribe (handle : Nat)
  | duplicate (handle : Nat)
  | giveBack (handle : Nat)
  | raise (handle : Nat)
  | send (place : Nat)
  | query (handle : Nat)
  | receive (listener : Nat)
  | leave (listener : Nat)
  deriving Repr, DecidableEq

/-- What a step answers.  A handle through which a message is being sent is busy; what is no longer
there is gone. -/
inductive ShutdownAnswer
  | listener (place : Nat)
  | handle (place : Nat)
  | flag (raised : Bool)
  | reception (r : Reception)
  | done
  | busy
  | gone
  deriving Repr, DecidableEq

namespace Shutdown

/-- Whether a handle is still held. -/
def holds (s : Shutdown) (handle : Nat) : Bool :=
  s.handles[handle]? = some true

/-- Whether every handle has been given back. -/
def abandoned (s : Shutdown) : Bool :=
  s.handles.all (! ·)

/-- How many listeners there are. -/
def audience (s : Shutdown) : Nat :=
  s.listeners.countP Option.isSome

/-- How many messages a listener has behind it, if it still listens. -/
def position? (s : Shutdown) (listener : Nat) : Option Nat :=
  (s.listeners[listener]?).join

/-- The record of a shutdown being triggered. -/
def triggerRecord (s : Shutdown) : LogRecord :=
  { level := .info
    source := .shutdown
    message := "Shutdown triggered"
    fields := [("subscribers", .number s.audience)] }

/-- What a listener finds who has the given number of messages behind it. -/
def reception (s : Shutdown) (position : Nat) : Reception :=
  if position + 1 < s.sent then .lagged (s.sent - 1 - position)
  else if position < s.sent then .signal
  else if s.abandoned then .closed
  else .empty

/-- The number of messages behind a listener after it has found something. -/
def positionAfter (position : Nat) : Reception → Nat
  | .signal => position + 1
  | .lagged missed => position + missed
  | .empty => position
  | .closed => position

/-- One step. -/
def step (s : Shutdown) : ShutdownStep → ShutdownAnswer × Shutdown × Trace
  | .subscribe h =>
      if s.holds h then
        (.listener s.listeners.length, { s with listeners := s.listeners ++ [some s.sent] }, [])
      else (.gone, s, [])
  | .duplicate h =>
      if s.holds h then
        (.handle s.handles.length, { s with handles := s.handles ++ [true] }, [])
      else (.gone, s, [])
  | .giveBack h =>
      if s.holds h then
        if h ∈ s.firing then (.busy, s, [])
        else (.done, { s with handles := s.handles.set h false }, [])
      else (.gone, s, [])
  | .raise h =>
      if s.holds h then
        if s.triggered then (.done, s, [])
        else
          (.done, { s with triggered := true, firing := s.firing ++ [h] },
            [.log s.triggerRecord])
      else (.gone, s, [])
  | .send place =>
      if place < s.firing.length then
        (.done, { s with firing := s.firing.eraseIdx place, sent := s.sent + 1 }, [])
      else (.gone, s, [])
  | .query h =>
      if s.holds h then (.flag s.triggered, s, []) else (.gone, s, [])
  | .receive l =>
      match s.position? l with
      | none => (.gone, s, [])
      | some position =>
          let r := s.reception position
          (.reception r,
            { s with listeners := s.listeners.set l (some (positionAfter position r)) }, [])
  | .leave l =>
      match s.position? l with
      | none => (.gone, s, [])
      | some _ => (.done, { s with listeners := s.listeners.set l none }, [])

/-- A run of steps: their answers and the shutdown after them. -/
def run (s : Shutdown) : List ShutdownStep → List ShutdownAnswer × Shutdown
  | [] => ([], s)
  | a :: rest =>
      let (answer, next, _) := s.step a
      let (answers, last) := next.run rest
      (answer :: answers, last)

/-- Triggers a shutdown: raises the flag and, if that has not been done before, sends the message. -/
def trigger (s : Shutdown) (handle : Nat) : ShutdownAnswer × Shutdown × Trace :=
  let (answer, raised, trace) := s.step (.raise handle)
  (answer, (raised.step (.send s.firing.length)).2.1, trace)

end Shutdown

end StreamServer
