import StreamServer.Connection.Service
import StreamServer.Sink

/-!
# Sessions

A session runs any number of connections, each over a transport of its own, with one sink for all of
them.  A transport together with its connection and the interrupters made from it is a *line*.  Each
step concerns one line; it is a function of that line alone, and the sink only sees what the step
did.
-/

namespace StreamServer

/-- A transport with the connection over it, if there still is one, and its interrupters. -/
structure Line (σ : Type) where
  transport : σ
  handles : Nat
  connection : Option Connection
  interrupters : List (Option Interrupter)

/-- What can be done on a line. -/
inductive LineStep
  | write (data : Bytes)
  | writeAll (data : Bytes)
  | read (wanted : Nat)
  | readDefault
  | close
  | drop
  | interrupter
  | interrupt (place : Nat)
  | dropInterrupter (place : Nat)
  deriving Repr, DecidableEq

/-- What a step on a line answers. -/
inductive Answer
  | count (r : Except ConnectionError Nat)
  | done (r : Except ConnectionError Unit)
  | data (r : Except ConnectionError Bytes)
  | interrupter (r : Except Fault Interrupter)
  | interrupted (r : Except Fault Unit)
  | dropped
  | gone

namespace Line

variable {σ : Type} [Transport σ]

/-- Opens a line: makes a connection of the first handle of a transport. -/
def «open» (number : Nat) (settings : ConnectionSettings) (t : σ) :
    Except ConnectionError Unit × Line σ × Trace :=
  let o := Connection.adopt ⟨number, 0⟩ settings t
  match o.result with
  | .ok c => (.ok (), ⟨o.transport, 1, some c, []⟩, o.trace)
  | .error e => (.error e, ⟨o.transport, 1, none, []⟩, o.trace)

/-- The interrupter at a place, if it is still there. -/
def interrupter? (l : Line σ) (place : Nat) : Option Interrupter :=
  (l.interrupters[place]?).join

/-- The line after an operation that leaves its connection as it is. -/
def moved {α : Type} (l : Line σ) (o : Outcome σ α) : Line σ :=
  { l with transport := o.transport }

/-- A step on the connection of a line. -/
def onConnection (l : Line σ) (c : Connection) : LineStep → Answer × Line σ × Trace
  | .write data =>
      let o := c.write l.transport data
      (.count o.result, l.moved o, o.trace)
  | .writeAll data =>
      let o := c.writeAll l.transport data
      (.done o.result, l.moved o, o.trace)
  | .read wanted =>
      let o := c.read l.transport wanted
      (.data o.result, l.moved o, o.trace)
  | .readDefault =>
      let o := c.readDefault l.transport
      (.data o.result, l.moved o, o.trace)
  | .close =>
      let o := c.close l.transport
      (.done o.result, { l.moved o with connection := some c.ended }, o.trace)
  | .drop =>
      let o := c.drop l.transport
      (.dropped, { l.moved o with connection := none }, o.trace)
  | .interrupter =>
      let o := c.interrupter l.transport l.handles
      match o.result with
      | .ok i =>
          (.interrupter (.ok i),
            { l.moved o with
              handles := l.handles + 1
              interrupters := l.interrupters ++ [some i] },
            o.trace)
      | .error f => (.interrupter (.error f), l.moved o, o.trace)
  | .interrupt _ => (.gone, l, [])
  | .dropInterrupter _ => (.gone, l, [])

/-- A step on a line; what is no longer there is gone. -/
def step (l : Line σ) : LineStep → Answer × Line σ × Trace
  | .interrupt place =>
      match l.interrupter? place with
      | none => (.gone, l, [])
      | some i =>
          let o := i.interrupt l.transport
          (.interrupted o.result, l.moved o, o.trace)
  | .dropInterrupter place =>
      match l.interrupter? place with
      | none => (.gone, l, [])
      | some i =>
          let o := i.drop l.transport
          (.dropped, { l.moved o with interrupters := l.interrupters.set place none }, o.trace)
  | s =>
      match l.connection with
      | none => (.gone, l, [])
      | some c => l.onConnection c s

end Line

/-- The lines of a session in the order of their opening, and the board that its sink leads to. -/
structure Session (σ ω : Type) where
  lines : List (Line σ) := []
  board : Board ω
  route : Route

/-- What is done in a session: a line is opened, or one of its lines makes a step. -/
inductive SessionStep (σ : Type)
  | open (settings : ConnectionSettings) (transport : σ)
  | on (line : Nat) (step : LineStep)

/-- What a step of a session answers. -/
inductive SessionAnswer
  | opened (r : Except ConnectionError Unit)
  | line (a : Answer)

namespace Session

variable {σ ω : Type} [Transport σ] [Writer ω]

/-- The lines after a step, what it answers, and what it does on its line. -/
def advance (lines : List (Line σ)) : SessionStep σ → SessionAnswer × List (Line σ) × Trace
  | .open settings t =>
      let (answer, line, trace) := Line.open lines.length settings t
      (.opened answer, lines ++ [line], trace)
  | .on i s =>
      match lines[i]? with
      | none => (.line .gone, lines, [])
      | some l =>
          let (answer, line, trace) := l.step s
          (.line answer, lines.set i line, trace)

/-- A step of a session: what it answers, the session after it, and what is seen of it. -/
def step (s : Session σ ω) (a : SessionStep σ) : SessionAnswer × Session σ ω × Trace :=
  let (answer, lines, trace) := advance s.lines a
  let (board, seen) := s.board.relay s.route trace
  (answer, { s with lines, board }, seen)

/-- Something that happens to the transport of a line from outside. -/
def onTransport {α : Type} (s : Session σ ω) (line : Nat) (f : σ → α × σ) :
    Option (α × Session σ ω) :=
  (s.lines[line]?).map fun l =>
    ((f l.transport).1,
      { s with lines := s.lines.set line { l with transport := (f l.transport).2 } })

/-- A run of steps: their answers, the session after them, and what is seen of each. -/
def run (s : Session σ ω) : List (SessionStep σ) → List SessionAnswer × Session σ ω × List Trace
  | [] => ([], s, [])
  | a :: rest =>
      let (answer, next, seen) := s.step a
      let (answers, last, seens) := next.run rest
      (answer :: answers, last, seen :: seens)

end Session

end StreamServer
