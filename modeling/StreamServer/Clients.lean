import StreamServer.Server
import StreamServer.Transport.Socket

/-!
# Clients of a server

A run of a server with clients who act one after the other.  Between two acts the server does
everything that it can do without waiting: every task reads as long as there is something to read,
tasks that are through finish, and clients in the backlog are accepted while there are permits.
-/

namespace StreamServer

/-- Where a client is: in the backlog with its socket, or served by a task. -/
inductive Seat
  | waiting (socket : Socket)
  | served (task : Nat)

/-- A server with its clients, in the order in which they came, and what has been done so far with
the task that did it. -/
structure Clients where
  server : Server Socket
  seats : List Seat := []
  history : List (Option Nat × Trace) := []

namespace ServerStep

/-- The task that makes a step, if it is one. -/
def actor? {σ : Type} : ServerStep σ → Option Nat
  | begin task => some task
  | read task => some task
  | write task => some task
  | deregister task => some task
  | close task => some task
  | giveBack task => some task
  | _ => none

end ServerStep

namespace Clients

/-- Everything that has been seen, in order. -/
def trace (c : Clients) : Trace :=
  c.history.flatMap Prod.snd

/-- What the task of a client has done. -/
def traceOf (c : Clients) (client : Nat) : Trace :=
  match c.seats[client]? with
  | some (.served task) => (c.history.filter fun h => h.1 = some task).flatMap Prod.snd
  | _ => []

/-- A step of the server, if it can happen. -/
def perform (c : Clients) (a : ServerStep Socket) : Clients :=
  match c.server.step? a with
  | some (server, trace) => { c with server, history := c.history ++ [(a.actor?, trace)] }
  | none => c

/-- Several steps of the server. -/
def performAll (c : Clients) (steps : List (ServerStep Socket)) : Clients :=
  steps.foldl perform c

/-! ## What the server does by itself -/

/-- A task echoes what is left, and reads as long as there is something to read, in at most so many
steps. -/
def serves (c : Clients) (task : Nat) : Nat → Clients
  | 0 => c
  | n + 1 =>
      match c.server.tasks[task]? with
      | some t =>
          match t.phase with
          | .opened => (c.perform (.begin task)).serves task n
          | .serving [] => if t.transport.ready then (c.perform (.read task)).serves task n else c
          | .serving _ => (c.perform (.write task)).serves task n
          | _ => c
      | none => c

/-- A task does what it can, and finishes if it is through.  Every read but the last takes something,
and every write but the last gives something, so there are no more of either than octets and one. -/
def work (c : Clients) (task : Nat) : Clients :=
  match c.server.tasks[task]? with
  | some t =>
      (c.serves task (2 * t.transport.incoming.length + 3)).performAll
        [.deregister task, .close task, .giveBack task]
  | none => c

/-- Every task does what it can. -/
def workAll (c : Clients) : Clients :=
  (List.range c.server.tasks.length).foldl work c

/-- The smallest number that is not in use. -/
def freeNumber (used : List Nat) : Nat :=
  ((List.range (used.length + 1)).find? fun n => n ∉ used).getD used.length

/-- The clients who wait in the backlog, with their sockets. -/
def backlog (c : Clients) : List (Nat × Socket) :=
  ((List.range c.seats.length).zip c.seats).filterMap fun
    | (client, .waiting socket) => some (client, socket)
    | (_, .served _) => none

/-- The first client in the backlog is accepted, if the server still accepts and has a permit. -/
def acceptFirst (c : Clients) : Clients :=
  let c := c.perform .acquire
  match c.server.phase, c.backlog with
  | .accepting (some _), (client, socket) :: _ =>
      let used := c.server.openDescriptors
      let descriptor := freeNumber used
      let duplicate := freeNumber (descriptor :: used)
      let task := c.server.tasks.length
      let peer :=
        match socket.peer with
        | .ok name => name
        | .error f => f.text
      let c := c.perform (.accept peer { socket with descriptor } duplicate (.ok ()))
      { c with seats := c.seats.set client (.served task) }.work task
  | _, _ => c

/-- The server does everything that it can do without waiting. -/
def settle (c : Clients) : Clients :=
  let c := c.workAll
  c.backlog.foldl (fun c _ => c.acceptFirst) c

/-! ## What the clients do -/

/-- A client comes to the server.  It is refused if the server has stopped. -/
def come (c : Clients) (peer : String) : Clients :=
  settle
    { c with
      seats := c.seats ++ [.waiting { family := .internet, descriptor := 0, peer := .ok peer }] }

/-- A client acts at its end of the connection. -/
def act (c : Clients) (client : Nat) (a : PeerStep) : PeerAnswer × Clients :=
  match c.seats[client]? with
  | none => (.gone, c)
  | some (.waiting socket) =>
      let (answer, socket) := socket.peerStep a
      (answer, { c with seats := c.seats.set client (.waiting socket) }.settle)
  | some (.served task) =>
      match c.server.tasks[task]? with
      | none => (.gone, c)
      | some t =>
          let (answer, socket) := t.transport.peerStep a
          (answer, (c.perform (.stir task socket)).settle)

/-- The socket of a client whom nobody will accept any more. -/
def refuse : Seat → Seat
  | .waiting socket => .waiting { socket with shut := true, resets := true }
  | .served task => .served task

/-- The server is told to stop, and does everything until it has stopped. -/
def stop (c : Clients) : Clients :=
  let c := c.perform .stop
  let c := c.performAll (c.server.registry.map fun r => .interrupt r.1)
  let c := (c.perform .interruptedAll).workAll.perform .finish
  { c with seats := c.seats.map refuse }

/-- Whether the server has stopped. -/
def stopped (c : Clients) : Bool :=
  c.server.phase = .stopped

/-- The transfers of a client's connection, in order: their directions and sizes. -/
def transfers (c : Clients) (client : Nat) : List (Direction × Nat) :=
  (c.traceOf client).events.filterMap fun
    | .transfer direction _ bytes => some (direction, bytes)
    | _ => none

/-- How many connections have told that they were closed. -/
def closings (c : Clients) : Nat :=
  c.trace.events.countP fun
    | .closed _ => true
    | _ => false

end Clients

end StreamServer
