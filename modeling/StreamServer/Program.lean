import StreamServer.Clients
import StreamServer.Log.Filter
import StreamServer.Program.Arguments
import StreamServer.Shutdown
import StreamServer.Sink

/-!
# The program

The program reads its arguments and its settings, starts the server, and serves until it receives a
signal.  Everything that can keep it from starting is found before a client is accepted.
-/

namespace StreamServer

/-! ## Before the start -/

/-- How a program ends that does not start: with its help, because of how it was called, or because
of its settings. -/
inductive Ending
  | help (full : Bool)
  | misuse
  | failed (e : SettingsError)

namespace Ending

/-- The exit code of an ending. -/
def exitCode : Ending → Nat
  | help _ => 0
  | misuse => 2
  | failed _ => 1

end Ending

namespace ProgramCall

/-- The settings that a call runs with, `content` being what is read at a path. -/
def settings (call : ProgramCall) (content : String → Except Fault Bytes) :
    Except Ending Settings :=
  match call with
  | .help full => .error (.help full)
  | .misuse => .error .misuse
  | .run path overrides =>
      match Settings.forProgram (path.map fun p => Settings.ofContent (content p)) overrides with
      | .ok s => .ok s
      | .error e => .error (.failed e)

end ProgramCall

/-! ## The start -/

/-- Why a program with valid settings does not start. -/
inductive StartFailure
  | metrics (f : Fault)
  | listener (e : BindFailure)
  deriving Repr, DecidableEq

namespace StartFailure

/-- The form in which every part is named. -/
def details : StartFailure → String
  | metrics f => "FailedToCreateHTTPListener(" ++ quote f.text ++ ")"
  | listener e => e.details

end StartFailure

/-- A signal of the system that ends the program. -/
inductive EndSignal
  | interrupt
  | terminate
  deriving Repr, DecidableEq

namespace EndSignal

/-- The name of a signal. -/
def name : EndSignal → String
  | interrupt => "SIGINT"
  | terminate => "SIGTERM"

end EndSignal

/-- A client of the program: it comes from an address, sends its data, receives them back, and ends
its connection in order or resets it. -/
structure Visit where
  peer : SocketAddress
  data : Bytes
  resets : Bool
  deriving Repr, DecidableEq

namespace Program

/-- A record of the program itself. -/
def note (message : String) (fields : List (String × LogValue)) : Act :=
  .log { level := .info, source := .program, message, fields }

/-- The record of a program that starts. -/
def startingRecord (s : Settings) : Act :=
  note "socket-conn v0.1.0 starting"
    [ ("bind_address", .text s.listener.bindAddress),
      ("max_connections", .number s.listener.maxConnections.toNat),
      ("read_size", .number s.connection.readSize.toNat) ]

/-- Publishes the counters, if the settings say so. -/
def publish (net : Network) (s : ReportSettings) : Except StartFailure Unit × Trace :=
  if s.metricsEnabled then
    match SocketAddress.parse? s.metricsAddress with
    | none => (.error (.metrics BindFailure.notAnAddress), [])
    | some address =>
        match net.bind address with
        | .error f => (.error (.metrics f), [])
        | .ok _ =>
            (.ok (),
              [ .log
                  { level := .info
                    source := .metrics
                    message := "Metrics exporter listening"
                    fields := [("address", .text address.text)] } ])
  else (.ok (), [])

/-- Starts the program: publishes the counters, then listens. -/
def start (net : Network) (s : Settings) : Except StartFailure Listener × Trace :=
  let published := publish net s.report
  let trace := startingRecord s :: published.2
  match published.1 with
  | .error e => (.error e, trace)
  | .ok () =>
      let bound := Listener.bind net s.listener
      match bound.1 with
      | .error e => (.error (.listener e), trace ++ bound.2)
      | .ok l =>
          (.ok l,
            trace ++ bound.2
              ++ [note "Listening for connections" [("address", .text l.address.text)]])

/-! ## The run -/

/-- The sink of the program: records of all events, and counters if they are published. -/
def board (s : ReportSettings) : Board LimitedWriter × Route :=
  if s.metricsEnabled then (⟨[.tracing, .metrics], []⟩, .fanout [.leaf 0, .leaf 1])
  else (⟨[.tracing], []⟩, .leaf 0)

/-- One client comes and goes; what it receives back. -/
def welcome (net : Network) (c : Clients) (v : Visit) : Except Fault (Bytes × Clients) :=
  match net.reach v.peer with
  | .error f => .error f
  | .ok () =>
      let client := c.seats.length
      let c := ((c.come v.peer.text).act client (.send v.data)).2
      let (answer, c) := c.act client (.receive v.data.length)
      let echoed :=
        match answer with
        | .data d => d
        | _ => []
      .ok (echoed, (c.act client (if v.resets then .reset else .halfClose)).2)

/-- Clients come and go, one after the other. -/
def welcomeAll (net : Network) (c : Clients) : List Visit → Except Fault (List Bytes × Clients)
  | [] => .ok ([], c)
  | v :: rest =>
      match welcome net c v with
      | .error f => .error f
      | .ok (echoed, c) =>
          match welcomeAll net c rest with
          | .error f => .error f
          | .ok (more, c) => .ok (echoed :: more, c)

/-- What is seen when a signal arrives: the shutdown, to which the server listens and which whoever
waits for signals holds too, is triggered. -/
def signalled (signal : EndSignal) : Trace :=
  let listening := (({} : Shutdown).step (.subscribe 0)).2.1
  let held := (listening.step (.duplicate 0)).2.1
  .log { level := .info, source := .signals, message := "Received " ++ signal.name }
    :: (held.trigger 1).2.2

/-- What is seen at the very end. -/
def farewell : Trace :=
  [note "Shutdown complete" []]

/-- What a run of the program has shown: what every client received back, and everything that was
done. -/
structure Run where
  echoed : List Bytes
  trace : Trace

/-- What others see of a trace: events have become records. -/
def reported (s : ReportSettings) (t : Trace) : Trace :=
  let (board, route) := board s
  (board.relay route t).2

/-- The program from its start with a listener to its end by a signal, some clients coming and going
before. -/
def run (net : Network) (s : Settings) (l : Listener) (visits : List Visit) (signal : EndSignal) :
    Except Fault Run :=
  match welcomeAll net { server := { settings := s.connection, gate := l.gate } } visits with
  | .error f => .error f
  | .ok (echoed, c) =>
      let stopping := c.stop.trace.drop c.trace.length
      .ok ⟨echoed, reported s.report (c.trace ++ signalled signal ++ stopping ++ farewell)⟩

/-- The records of a trace that a filter shows. -/
def shown (f : LogFilter) (t : Trace) : List LogRecord :=
  t.filterMap fun
    | .log r => if f.shows r then some r else none
    | _ => none

end Program

end StreamServer
