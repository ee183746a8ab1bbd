import StreamServer.Sink.Counters
import StreamServer.Sink.Writer
import StreamServer.Transport

/-!
# Sinks

Events go to a sink, which is a leaf or a fan of sinks.  Leaves live on a board and are named by their
places there, so that one leaf can hang in several fans.  A leaf keeps the events, writes a log record
for each, counts them, records them in a journal for others to see, or writes them as lines of JSON.

What a sink does with an event is again a trace.  Nothing of it comes back to whoever emitted the
event.
-/

namespace StreamServer

/-- A sink that ends the way of an event. -/
inductive Leaf (ω : Type)
  | memory (kept : List Event)
  | tracing
  | metrics
  | journal
  | jsonLines (writer : ω)

/-- The way of events: to a leaf at a place, or to several sinks in order. -/
inductive Route
  | leaf (place : Nat)
  | fanout (branches : List Route)

namespace Route

mutual

/-- The places that an event reaches, in order. -/
def targets : Route → List Nat
  | .leaf i => [i]
  | .fanout branches => targetsOfAll branches

/-- The places that an event reaches by several ways, in order. -/
def targetsOfAll : List Route → List Nat
  | [] => []
  | r :: rest => r.targets ++ targetsOfAll rest

end

end Route

namespace Event

/-- The log record of an event. -/
def record : Event → LogRecord
  | .transfer .outbound peer bytes =>
      { level := .debug
        source := .events
        message := peer ++ " <-- Sending " ++ toString bytes ++ " bytes"
        fields := [("direction", .word "outbound"), ("peer", .text peer), ("bytes", .number bytes)] }
  | .transfer .inbound peer bytes =>
      { level := .debug
        source := .events
        message := peer ++ " --> Reading " ++ toString bytes ++ " bytes"
        fields := [("direction", .word "inbound"), ("peer", .text peer), ("bytes", .number bytes)] }
  | .closed id =>
      { level := .debug
        source := .events
        message := "Socket #" ++ toString id ++ " has been closed"
        fields := [("event", .word "closed"), ("id", .number id)] }
  | .closeFailed id reason =>
      { level := .warn
        source := .events
        message := "Socket #" ++ toString id ++ " did not close cleanly"
        fields := [("event", .word "close_failed"), ("id", .number id), ("reason", .text reason)] }

end Event

/-- The record of an event that could not be written. -/
def writeFailure (f : Fault) : LogRecord :=
  { level := .warn
    source := .events
    message := "Failed to write connection event"
    fields := [("error", .text f.text)] }

/-- Writes an event as a line, piece by piece; the end of the line is written only after all of its
text. -/
def writeLine {ω : Type} [Writer ω] (w : ω) (e : Event) : Except Fault Unit × ω :=
  Writer.writeEach w ((e.linePieces ++ [['\n']]).map Bytes.ofChars)

/-- The leaves, and the counters that all counting leaves share. -/
structure Board (ω : Type) where
  leaves : List (Leaf ω)
  counters : Counters := []

namespace Board

variable {ω : Type} [Writer ω]

/-- The leaf at a place. -/
def leaf? (b : Board ω) (i : Nat) : Option (Leaf ω) :=
  b.leaves[i]?

/-- The board with a leaf put in a place. -/
def put (b : Board ω) (i : Nat) (l : Leaf ω) : Board ω :=
  { b with leaves := b.leaves.set i l }

/-- Gives an event to the leaf at a place. -/
def deliver (b : Board ω) (e : Event) (i : Nat) : Board ω × Trace :=
  match b.leaf? i with
  | none => (b, [])
  | some (.memory kept) => (b.put i (.memory (kept ++ [e])), [])
  | some .tracing => (b, [.log e.record])
  | some .metrics => ({ b with counters := b.counters.count e }, [])
  | some .journal => (b, [.emit e])
  | some (.jsonLines w) =>
      match writeLine w e with
      | (.ok (), w) => (b.put i (.jsonLines w), [])
      | (.error f, w) => (b.put i (.jsonLines w), [.log (writeFailure f)])

mutual

/-- Sends an event on its way. -/
def emit (b : Board ω) (e : Event) : Route → Board ω × Trace
  | .leaf i => b.deliver e i
  | .fanout branches => b.emitAll e branches

/-- Sends an event on several ways, one after the other. -/
def emitAll (b : Board ω) (e : Event) : List Route → Board ω × Trace
  | [] => (b, [])
  | r :: rest =>
      let first := b.emit e r
      let more := first.1.emitAll e rest
      (more.1, first.2 ++ more.2)

end

/-- What a memory leaf has kept. -/
def events? (b : Board ω) (i : Nat) : Option (List Event) :=
  match b.leaf? i with
  | some (.memory kept) => some kept
  | _ => none

/-- Takes everything out of a memory leaf. -/
def take? (b : Board ω) (i : Nat) : Option (List Event × Board ω) :=
  (b.events? i).map fun kept => (kept, b.put i (.memory []))

/-- What others see of a trace: every event of it goes to the sink, all else stays. -/
def relay (b : Board ω) (r : Route) : Trace → Board ω × Trace
  | [] => (b, [])
  | .emit e :: rest =>
      let first := b.emit e r
      let more := first.1.relay r rest
      (more.1, first.2 ++ more.2)
  | a :: rest =>
      let more := b.relay r rest
      (more.1, a :: more.2)

end Board

end StreamServer
