import StreamServer.Connection.Service
import StreamServer.Listener

/-!
# The server

The server accepts clients and serves each in a task of its own, until it is told to stop; then it
interrupts every connection that is still registered and waits for all tasks.  Here it is a machine
whose steps happen in any order that their conditions allow, so that a run of the machine is one
interleaving of the accept loop and the tasks.  A task makes a step for every read and for every
write, so anything can happen between what is read and what is echoed of it.

The register holds an interrupter for every connection that is being served, under the number of its
descriptor.  Numbers are used again after they have been given back, so a task takes its connection
off the register before it closes it.  A number given out is one that nothing open has: that is the
system's part, and a condition of the step that accepts a client.
-/

namespace StreamServer

/-- How far a task has come.  It has been started but has done nothing yet, or it serves its
connection and has so much left to echo, or the service has ended; then come the parts of parting. -/
inductive TaskPhase
  | opened
  | serving (left : Bytes)
  | served
  | deregistered
  | closed
  | finished
  deriving Repr, DecidableEq

/-- The phase of a task that has so much left to echo, or whose service has ended. -/
def TaskPhase.next : Option Bytes → TaskPhase
  | some left => .serving left
  | none => .served

/-- A task: the connection it serves, over which transport, and the place of its permit. -/
structure Task (σ : Type) where
  connection : Connection
  transport : σ
  permit : Nat
  phase : TaskPhase

/-- What the register holds for a connection: its interrupter, and the number of the descriptor that
the interrupter keeps open. -/
structure Registration where
  interrupter : Interrupter
  descriptor : Nat
  deriving Repr, DecidableEq

/-- What the accept loop is doing.  While it accepts, it may hold a permit at a place. -/
inductive ServerPhase
  | accepting (attempt : Option Nat)
  | interrupting
  | joining
  | stopped
  deriving Repr, DecidableEq

/-- The server.  Tasks are named by their places; `interrupted` are those whose connections have been
interrupted. -/
structure Server (σ : Type) where
  settings : ConnectionSettings
  gate : Gate
  tasks : List (Task σ) := []
  registry : List (Nat × Registration) := []
  interrupted : List Nat := []
  phase : ServerPhase := .accepting none

/-- What can happen to a server.  With a client comes the answer of the system to handing its stream
over to a task. -/
inductive ServerStep (σ : Type)
  | acquire
  | acceptFails (f : Fault)
  | abandon
  | accept (peer : String) (transport : σ) (duplicate : Nat) (handedOver : Except Fault Unit)
  | begin (task : Nat)
  | read (task : Nat)
  | write (task : Nat)
  | deregister (task : Nat)
  | close (task : Nat)
  | giveBack (task : Nat)
  | stop
  | interrupt (id : Nat)
  | interruptedAll
  | finish
  | stir (task : Nat) (transport : σ)

namespace Server

variable {σ : Type} [Transport σ]

/-! ## Views -/

/-- The numbers of the descriptors that are open. -/
def openDescriptors (s : Server σ) : List Nat :=
  s.tasks.filterMap (fun t => t.connection.pollId?) ++ s.registry.map fun r => r.2.descriptor

/-- How many connections are registered. -/
def active (s : Server σ) : Nat :=
  s.registry.length

/-- The registration under a number. -/
def registration? (s : Server σ) (id : Nat) : Option Registration :=
  s.registry.lookup id

/-- The server with something done to a task. -/
def onTask (s : Server σ) (task : Nat) (f : Task σ → Task σ) : Server σ :=
  { s with tasks := s.tasks.modify task f }

/-- The server with something done to the transport of a task. -/
def onTransport (s : Server σ) (task : Nat) (f : σ → σ) : Server σ :=
  s.onTask task fun t => { t with transport := f t.transport }

/-! ## Accepting -/

/-- Makes a connection with its interrupter of a stream that was handed over.  If it was not handed
over, the stream is dropped; if there is no interrupter, the connection is. -/
def openConnection (number : Nat) (settings : ConnectionSettings) (t : σ)
    (handedOver : Except Fault Unit) : Outcome σ (Except String (Connection × Interrupter)) :=
  match handedOver with
  | .error f => ⟨.error f.text, Transport.release t, [.call ⟨number, 0⟩ .release]⟩
  | .ok () =>
      let o := Connection.adopt ⟨number, 0⟩ settings t
      match o.result with
      | .error e => ⟨.error e.message, o.transport, o.trace⟩
      | .ok c =>
          let i := (c.interrupter o.transport 1).after o.trace
          match i.result with
          | .ok it => ⟨.ok (c, it), i.transport, i.trace⟩
          | .error f =>
              let d := (c.drop i.transport).after i.trace
              ⟨.error f.text, d.transport, d.trace⟩

/-- Takes a permit, to wait for a client with. -/
def acquire? (s : Server σ) : Option (Server σ × Trace) :=
  match s.phase with
  | .accepting none =>
      (s.gate.step? .acquire).map fun gate =>
        ({ s with gate, phase := .accepting (some s.gate.slots.length) }, [])
  | _ => none

/-- The call that waits for a client fails. -/
def acceptFails? (s : Server σ) (f : Fault) : Option (Server σ × Trace) :=
  match s.phase with
  | .accepting (some permit) =>
      (s.gate.step? (.fail permit)).map fun gate =>
        ({ s with gate, phase := .accepting none },
          [Connection.note .warn "Accept failed" [("error", .text f.text)]])
  | _ => none

/-- Waiting for a client is given up, because something else is to be done first. -/
def abandon? (s : Server σ) : Option (Server σ × Trace) :=
  match s.phase with
  | .accepting (some permit) =>
      (s.gate.step? (.cancel permit)).map fun gate =>
        ({ s with gate, phase := .accepting none }, [])
  | _ => none

/-- The server with a connection registered and a task of its own for it. -/
def enrolled (s : Server σ) (c : Connection) (t : σ) (permit : Nat) (r : Registration) : Server σ :=
  { s with
    tasks := s.tasks ++ [⟨c, t, permit, .opened⟩]
    registry := s.registry.filter (fun e => e.1 ≠ c.id) ++ [(c.id, r)] }

/-- A client comes.  Its descriptor and the duplicate's have numbers that nothing open has.  If no
connection can be made of it, its permit goes back. -/
def accept? (s : Server σ) (peer : String) (t : σ) (duplicate : Nat)
    (handedOver : Except Fault Unit) : Option (Server σ × Trace) :=
  match s.phase with
  | .accepting (some permit) =>
      let id := Transport.descriptor t
      if id ∈ s.openDescriptors ∨ duplicate ∈ s.openDescriptors ∨ duplicate = id then none
      else
        (s.gate.step? (.letIn permit)).bind fun gate =>
          let accepted := Act.log (Listener.acceptedRecord peer gate.available)
          let o := openConnection s.tasks.length s.settings t handedOver
          match o.result with
          | .ok (c, it) =>
              some
                (({ s with gate, phase := .accepting none }).enrolled c o.transport permit
                    ⟨it, duplicate⟩,
                  accepted :: o.trace)
          | .error text =>
              (gate.step? (.giveBack permit)).map fun gate =>
                ({ s with gate, phase := .accepting none },
                  accepted :: o.trace
                    ++ [ Connection.note .warn "Dropping connection"
                          [("peer_addr", .text peer), ("error", .text text)],
                        .returnPermit ])
  | _ => none

/-! ## Serving -/

/-- A task begins to serve its connection. -/
def begin? (s : Server σ) (task : Nat) : Option (Server σ × Trace) :=
  match s.tasks[task]? with
  | some t =>
      if t.phase = .opened then
        some (s.onTask task fun t => { t with phase := .serving [] }, [t.connection.greeting])
      else none
  | none => none

/-- A task that has nothing left to echo reads. -/
def read? (s : Server σ) (task : Nat) : Option (Server σ × Trace) :=
  match s.tasks[task]? with
  | some t =>
      if t.phase = .serving [] then
        let o := t.connection.echoRead t.transport
        some
          (s.onTask task fun t => { t with transport := o.transport, phase := .next o.result },
            o.trace)
      else none
  | none => none

/-- A task that has something left to echo writes once. -/
def write? (s : Server σ) (task : Nat) : Option (Server σ × Trace) :=
  match s.tasks[task]? with
  | some t =>
      match t.phase with
      | .serving (b :: rest) =>
          let o := t.connection.echoWrite t.transport (b :: rest)
          some
            (s.onTask task fun t => { t with transport := o.transport, phase := .next o.result },
              o.trace)
      | _ => none
  | none => none

/-- A task that has served its connection takes it off the register. -/
def deregister? (s : Server σ) (task : Nat) : Option (Server σ × Trace) :=
  match s.tasks[task]? with
  | some t =>
      if t.phase = .served then
        let id := t.connection.id
        let s := s.onTask task fun t => { t with phase := .deregistered }
        match s.registration? id with
        | some r =>
            let s := s.onTransport r.interrupter.handle.line Transport.release
            some
              ({ s with registry := s.registry.filter fun e => e.1 ≠ id },
                [.deregister id, .call r.interrupter.handle .release])
        | none => some (s, [.deregister id])
      else none
  | none => none

/-- A task closes its connection. -/
def close? (s : Server σ) (task : Nat) : Option (Server σ × Trace) :=
  match s.tasks[task]? with
  | some t =>
      if t.phase = .deregistered then
        let o := t.connection.leave t.transport
        some
          (s.onTask task fun t =>
              { t with connection := t.connection.ended, transport := o.transport, phase := .closed },
            o.trace)
      else none
  | none => none

/-- A task gives its permit back, and is finished. -/
def giveBack? (s : Server σ) (task : Nat) : Option (Server σ × Trace) :=
  match s.tasks[task]? with
  | some t =>
      if t.phase = .closed then
        (s.gate.step? (.giveBack t.permit)).map fun gate =>
          (({ s with gate }).onTask task fun t => { t with phase := .finished }, [.returnPermit])
      else none
  | none => none

/-! ## Stopping -/

/-- The server is told to stop.  It no longer waits for clients. -/
def stop? (s : Server σ) : Option (Server σ × Trace) :=
  let trace :=
    [Connection.note .info "Shutdown signal received, stopping accept loop" []]
  match s.phase with
  | .accepting none => some ({ s with phase := .interrupting }, trace)
  | .accepting (some permit) =>
      (s.gate.step? (.cancel permit)).map fun gate =>
        ({ s with gate, phase := .interrupting }, trace)
  | _ => none

/-- Interrupts a connection that is registered and has not been interrupted. -/
def interrupt? (s : Server σ) (id : Nat) : Option (Server σ × Trace) :=
  match s.phase, s.registration? id with
  | .interrupting, some r =>
      let task := r.interrupter.handle.line
      match s.tasks[task]? with
      | some t =>
          if task ∈ s.interrupted then none
          else
            let o := r.interrupter.interrupt t.transport
            let remark :=
              match o.result with
              | .ok () => []
              | .error f =>
                  [ Connection.note .debug "Interrupt failed"
                      [("connection_id", .number id), ("error", .text f.text)] ]
            some
              (({ s with interrupted := s.interrupted ++ [task] }).onTransport task fun _ =>
                  o.transport,
                o.trace ++ remark)
      | none => none
  | _, _ => none

/-- Every connection on the register has been interrupted. -/
def interruptedAll? (s : Server σ) : Option (Server σ × Trace) :=
  if s.phase = .interrupting
      ∧ s.registry.all (fun e => e.2.interrupter.handle.line ∈ s.interrupted) then
    some ({ s with phase := .joining }, [])
  else none

/-- Every task is finished, and so is the server. -/
def finish? (s : Server σ) : Option (Server σ × Trace) :=
  if s.phase = .joining ∧ s.tasks.all (fun t => t.phase = .finished) then
    some ({ s with phase := .stopped }, [Connection.note .info "All connections drained" []])
  else none

/-- Something happens to the transport of a task from outside; its descriptor stays the same. -/
def stir? (s : Server σ) (task : Nat) (transport : σ) : Option (Server σ × Trace) :=
  match s.tasks[task]? with
  | some t =>
      if Transport.descriptor transport = Transport.descriptor t.transport then
        some (s.onTransport task fun _ => transport, [])
      else none
  | none => none

/-! ## Runs -/

/-- One step, if it can happen, and what is seen of it. -/
def step? (s : Server σ) : ServerStep σ → Option (Server σ × Trace)
  | .acquire => s.acquire?
  | .acceptFails f => s.acceptFails? f
  | .abandon => s.abandon?
  | .accept peer t duplicate handedOver => s.accept? peer t duplicate handedOver
  | .begin task => s.begin? task
  | .read task => s.read? task
  | .write task => s.write? task
  | .deregister task => s.deregister? task
  | .close task => s.close? task
  | .giveBack task => s.giveBack? task
  | .stop => s.stop?
  | .interrupt id => s.interrupt? id
  | .interruptedAll => s.interruptedAll?
  | .finish => s.finish?
  | .stir task t => s.stir? task t

/-- A run of steps, if all of them can happen. -/
def run? (s : Server σ) : List (ServerStep σ) → Option (Server σ × Trace)
  | [] => some (s, [])
  | a :: rest =>
      (s.step? a).bind fun first =>
        (first.1.run? rest).map fun more => (more.1, first.2 ++ more.2)

end Server

end StreamServer
