import StreamServer.Document.Json
import StreamServer.Program
import StreamServer.Transport.Script
import Std.Async
import Std.Sync
import Std.Time

/-!
# Running the program

The outermost layer: it performs what the library decides.  Every step of the server is made twice.
First the step is tried with the answers that the system has given so far, which shows what is still
to be asked of the system; then it is made with all answers, and its trace is reported.
-/

open Std.Async

namespace StreamServer

namespace Main

/-- A fault with the number that the system gave. -/
def faultOf : IO.Error → Fault
  | .alreadyExists _ n _ => .system n.toNat
  | .otherError n _ => .system n.toNat
  | .resourceBusy n _ => .system n.toNat
  | .resourceVanished n _ => .system n.toNat
  | .unsupportedOperation n _ => .system n.toNat
  | .hardwareFault n _ => .system n.toNat
  | .unsatisfiedConstraints n _ => .system n.toNat
  | .illegalOperation n _ => .system n.toNat
  | .protocolError n _ => .system n.toNat
  | .timeExpired n _ => .system n.toNat
  | .interrupted _ n _ => .system n.toNat
  | .noFileOrDirectory _ n _ => .system n.toNat
  | .invalidArgument _ n _ => .system n.toNat
  | .permissionDenied _ n _ => .system n.toNat
  | .resourceExhausted _ n _ => .system n.toNat
  | .inappropriateType _ n _ => .system n.toNat
  | .noSuchThing _ n _ => .system n.toNat
  | .unexpectedEof => .bare .unexpectedEof
  | .userError text => .custom .other text

/-- What an action answers, faults included. -/
def asked {α : Type} (action : Async α) : Async (Except Fault α) :=
  try
    let a ← action
    pure (.ok a)
  catch e => pure (.error (faultOf e))

/-! ## Addresses -/

/-- An address for the system. -/
def outward : SocketAddress → Std.Net.SocketAddress
  | .v4 os port =>
      .v4 ⟨⟨Vector.ofFn fun i => os.getD i.val 0⟩, port⟩
  | .v6 gs _ port =>
      .v6 ⟨⟨Vector.ofFn fun i => gs.getD i.val 0⟩, port⟩

/-- An address of the system. -/
def inward : Std.Net.SocketAddress → SocketAddress
  | .v4 a => .v4 a.addr.octets.toList a.port
  | .v6 a => .v6 a.addr.segments.toList 0 a.port

/-- Listens at an address. -/
def listen (address : SocketAddress) : Async (TCP.Socket.Server × SocketAddress) := do
  let server ← TCP.Socket.Server.mk
  server.bind (outward address)
  server.listen 1024
  pure (server, inward (← server.getSockName))

/-! ## Reports -/

/-- How records are shown: which, in which form. -/
structure Output where
  filter : LogFilter
  report : ReportSettings

namespace Output

/-- Writes a record with the time. -/
def write (o : Output) (r : LogRecord) : IO Unit := do
  let now ← Std.Time.Timestamp.now
  let time :=
    (Std.Time.DateTime.ofTimestampWithZone now .UTC).format "uuuu-MM-dd'T'HH:mm:ss.SSSSSS'Z'"
  match o.report.logFormat, r.toValue with
  | .json, .table entries =>
      IO.println (Json.text (.table (("timestamp", .string time) :: entries)))
  | _, _ =>
      let gap := if r.level.word.length < 5 then "  " else " "
      IO.println (time ++ gap ++ r.line)

/-- Reports a trace. -/
def tell (o : Output) (t : Trace) : IO Unit :=
  (Program.shown o.filter (Program.reported o.report t)).forM o.write

end Output

/-! ## The server -/

/-- What all tasks share: the server, how its traces are reported, and the sign to end. -/
structure World where
  server : Std.Mutex (Server Script)
  output : Output
  ending : Std.CancellationToken

namespace World

/-- The server as it is. -/
def look (w : World) : Async (Server Script) :=
  w.server.atomically get

/-- Makes a step of the server, if it can happen, and reports it. -/
def make (w : World) (a : ServerStep Script) : Async Unit := do
  let t ← w.server.atomically do
    match (← get).step? a with
    | some (next, t) => do
        set next
        pure t
    | none => pure []
  w.output.tell t

/-- Gives a task new answers of the system. -/
def supply (w : World) (task : Nat) (reads : List ReadAnswer)
    (writes : List (Except Fault Nat)) : Async Unit := do
  match (← w.look).tasks[task]? with
  | some t => w.make (.stir task { t.transport with reads, writes })
  | none => pure ()

/-- Reads from a client; the sign to end counts as its end. -/
def receive (w : World) (client : TCP.Socket.Client) (room : Nat) : Async ReadAnswer := do
  let answer ← asked do
    Selectable.one
      #[ .case (client.recvSelector (UInt64.ofNat room)) fun data => pure data,
         .case w.ending.selector fun _ => pure none ]
  match answer with
  | .ok (some data) => pure (.chunk data.toList none)
  | .ok none => pure (.chunk [] none)
  | .error f => pure (.fault f)

/-- Sends what a step would send. -/
def send (client : TCP.Socket.Client) (t : Trace) : Async (List (Except Fault Nat)) :=
  t.calls.filterMapM fun
    | (_, .send data _) => do
        let answer ← asked (client.send ⟨data.toArray⟩)
        pure (some (answer.map fun _ => data.length))
    | _ => pure none

/-- Serves a client to its end. -/
partial def serve (w : World) (client : TCP.Socket.Client) (task : Nat) : Async Unit := do
  let s ← w.look
  match s.tasks[task]? with
  | some t =>
      match t.phase with
      | .opened => do
          w.make (.begin task)
          w.serve client task
      | .serving [] => do
          let read ← w.receive client (min s.settings.readSize.toNat maxReadSize)
          w.supply task [read] []
          w.make (.read task)
          w.serve client task
      | .serving _ => do
          match s.step? (.write task) with
          | some (_, trial) => w.supply task [] (← send client trial)
          | none => pure ()
          w.make (.write task)
          w.serve client task
      | _ => do
          w.make (.deregister task)
          let _ ← asked client.shutdown
          w.make (.close task)
          w.make (.giveBack task)
  | none => pure ()

/-- A client has come: it becomes a connection, which a task serves. -/
def welcome (w : World) (client : TCP.Socket.Client) : Async (Option (AsyncTask Unit)) := do
  let s ← w.look
  let used := s.openDescriptors
  let descriptor := Clients.freeNumber used
  let name ← asked (do pure (inward (← client.getPeerName)).text)
  let peer :=
    match name with
    | .ok text => text
    | .error f => f.text
  let script : Script := { descriptor, peer := name }
  w.make (.accept peer script (Clients.freeNumber (descriptor :: used)) (.ok ()))
  if s.tasks.length < (← w.look).tasks.length then
    let task ← async (w.serve client s.tasks.length)
    pure (some task)
  else pure none

/-- What the accept loop meets first: a client, a signal, or nothing for a while. -/
inductive Arrival
  | client (c : TCP.Socket.Client)
  | signal (s : EndSignal)
  | nothing

/-- Accepts clients until a signal comes, which it returns with the tasks that were started. -/
partial def accept (w : World) (server : TCP.Socket.Server) (int term : Signal.Waiter)
    (tasks : List (AsyncTask Unit)) : Async (EndSignal × List (AsyncTask Unit)) := do
  w.make .acquire
  let signals : Array (Selectable Arrival) :=
    #[ .case int.selector fun _ => pure (.signal .interrupt),
       .case term.selector fun _ => pure (.signal .terminate) ]
  let waits :=
    match (← w.look).phase with
    | .accepting (some _) => true
    | _ => false
  let pause ← Selector.sleep 50
  let arrival : Except Fault Arrival ← asked do
    Selectable.one
      (signals.push
        (if waits then .case server.acceptSelector fun c => pure (.client c)
          else .case pause fun _ => pure Arrival.nothing))
  match arrival with
  | .ok (.client c) => w.accept server int term (tasks ++ (← w.welcome c).toList)
  | .ok (.signal s) => pure (s, tasks)
  | .ok .nothing => w.accept server int term tasks
  | .error f => do
      w.make (.acceptFails f)
      w.accept server int term tasks

/-- Ends the server: every connection is interrupted and every task waited for. -/
def finish (w : World) (tasks : List (AsyncTask Unit)) : Async Unit := do
  w.make .stop
  for r in (← w.look).registry do
    w.make (.interrupt r.1)
  w.make .interruptedAll
  w.ending.cancel
  for task in tasks do
    let _ ← asked (await task)
  w.make .finish

end World

/-- Listens at an address if it can be read, and keeps what the system answers. -/
def tryListen (text : String) : Async (Option (Except Fault (TCP.Socket.Server × SocketAddress))) :=
  match SocketAddress.parse? text with
  | none => pure none
  | some address => do pure (some (← asked (listen address)))

/-- Runs the program with valid settings; the exit code. -/
def runProgram (s : Settings) : Async UInt32 := do
  let (filter, complaints) := LogFilter.choose (← IO.getEnv "RUST_LOG") s.report.logLevel
  IO.eprint complaints
  let output : Output := ⟨filter, s.report⟩
  let metrics ← if s.report.metricsEnabled then tryListen s.report.metricsAddress else pure none
  let server ← tryListen s.listener.bindAddress
  let bound (wanted : SocketAddress) : Except Fault SocketAddress :=
    let answers := [(s.report.metricsAddress, metrics), (s.listener.bindAddress, server)]
    match answers.find? fun a => SocketAddress.parse? a.1 = some wanted && a.2.isSome with
    | some (_, some answer) => answer.map Prod.snd
    | _ => .ok wanted
  let (start, t) := Program.start ⟨bound, fun _ => .ok ()⟩ s
  output.tell t
  match start, server with
  | .ok l, some (.ok (server, _)) =>
      let w : World :=
        ⟨← Std.Mutex.new { settings := s.connection, gate := l.gate }, output,
          ← Std.CancellationToken.new⟩
      let int ← Signal.Waiter.mk .sigint false
      let term ← Signal.Waiter.mk .sigterm false
      let (signal, tasks) ← w.accept server int term []
      output.tell (Program.signalled signal)
      w.finish tasks
      output.tell Program.farewell
      pure 0
  | .error e, _ => do
      IO.eprintln ("Error: " ++ e.details)
      pure 1
  | _, _ => pure 1

/-- The content of a file. -/
def contentOf (path : String) : IO (Except Fault Bytes) := do
  try
    let content ← IO.FS.readBinFile path
    pure (.ok content.toList)
  catch e => pure (.error (faultOf e))

/-- Ends the program that does not start; the exit code. -/
def giveUp (e : Ending) : IO UInt32 := do
  match e with
  | .help full => IO.print (helpText full)
  | .misuse => IO.eprintln "usage"
  | .failed error => IO.eprintln ("Error: " ++ error.details)
  pure (UInt32.ofNat e.exitCode)

end Main

end StreamServer

open StreamServer in
/-- Runs the program with its arguments. -/
def main (arguments : List String) : IO UInt32 := do
  let call := ProgramCall.ofArguments arguments
  let content ←
    match call with
    | .run (some path) _ => Main.contentOf path
    | _ => pure (.ok [])
  match call.settings fun _ => content with
  | .ok s => Async.block (Main.runProgram s)
  | .error e => Main.giveUp e
