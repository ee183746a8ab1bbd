import StreamServer.Connection.Error
import StreamServer.Settings
import StreamServer.Transport

/-!
# Connections

A connection owns one handle of a transport until it is closed, once.  Its identity and the address
of its peer are fixed when it is opened.  Every operation gives its result, the transport after it,
and the trace of what it did.

* A write offers the whole payload, again and again while the call is broken off, and reports how
  much was taken.  Less than everything is a success; more is an error.
* A read asks for no more than `maxReadSize` octets and never returns more than it asked for.
* A fault of a read or a write leaves the connection open.  Only closing closes it, whatever the
  transport answers.
-/

namespace StreamServer

/-- Whether a connection owns its handle or has given it back. -/
inductive ConnectionState
  | live
  | closed
  deriving Repr, DecidableEq

namespace ConnectionState

/-- The word for a state. -/
def word : ConnectionState → String
  | live => "Open"
  | closed => "Closed"

end ConnectionState

/-- One connected peer. -/
structure Connection where
  handle : Option Handle
  id : Nat
  origin : String
  state : ConnectionState
  settings : ConnectionSettings
  deriving Repr, DecidableEq

/-- A second handle by which a connection can be ended from elsewhere. -/
structure Interrupter where
  handle : Handle
  id : Nat
  deriving Repr, DecidableEq

namespace Connection

variable {σ : Type} [Transport σ]

/-! ## Views -/

/-- Whether the connection can be used. -/
def isValid (c : Connection) : Bool :=
  c.state == .live && c.handle.isSome

/-- The number to register with a readiness poller. -/
def pollId? (c : Connection) : Option Nat :=
  c.handle.map fun _ => c.id

/-- A connection on one short line. -/
def shown (c : Connection) : String :=
  "#" ++ toString c.id ++ " (" ++ c.origin ++ ")"

/-- The fields of a connection that are shown in full, the rest being left out. -/
def shownFields (c : Connection) : List (String × String) :=
  [("id", toString c.id), ("origin", quote c.origin), ("state", c.state.word)]

/-- A connection in full, on one line. -/
def details (c : Connection) : String :=
  "Connection \x7b "
    ++ String.join (c.shownFields.map fun f => f.1 ++ ": " ++ f.2 ++ ", ") ++ ".. \x7d"

/-- A connection in full, a line for each field. -/
def detailsLines (c : Connection) : String :=
  "Connection \x7b\n"
    ++ String.join (c.shownFields.map fun f => "    " ++ f.1 ++ ": " ++ f.2 ++ ",\n")
    ++ "    ..\n\x7d"

/-! ## Opening -/

/-- Makes a connection of a handle.  Without a peer there is none, and the handle is given back. -/
def adopt (h : Handle) (settings : ConnectionSettings) (t : σ) :
    Outcome σ (Except ConnectionError Connection) :=
  let asked := Act.call h (.peer (Transport.peer t))
  match Transport.peer t with
  | .error f =>
      ⟨.error (.peerUnknown f), Transport.release t, [asked, .call h .release]⟩
  | .ok origin =>
      let id := Transport.descriptor t
      ⟨.ok ⟨some h, id, origin, .live, settings⟩, t,
        [ asked,
          .log
            { level := .trace
              source := .connection
              message := "Connection opened"
              fields := [("connection_id", .number id), ("peer", .text origin)] } ]⟩

/-! ## Writing -/

/-- Offers a payload until the call is not broken off. -/
def sendThrough (h : Handle) (t : σ) (data : Bytes) : Outcome σ (Except Fault Nat) :=
  let made := Act.call h (.send data (Transport.send t data).1)
  match _answer : (Transport.send t data).1 with
  | .ok n => ⟨.ok n, (Transport.send t data).2, [made]⟩
  | .error f =>
      if _again : f.isInterrupted = true then
        (sendThrough h (Transport.send t data).2 data).after [made]
      else ⟨.error f, (Transport.send t data).2, [made]⟩
termination_by Transport.patience t
decreasing_by exact Transport.patience_send t data f _answer _again

/-- The fault of a transport that claims to have taken more than it was offered. -/
def overreport (claimed offered : Nat) : Fault :=
  .custom .invalidData
    ("transport reported " ++ toString claimed ++ " bytes sent for a " ++ toString offered
      ++ " byte payload")

/-- What an answer of the transport means for a write of the payload. -/
def writeResult (c : Connection) (data : Bytes) : Except Fault Nat → Except ConnectionError Nat
  | .ok n =>
      if data.length < n then
        .error (.writeFailed (preview data c.settings.previewLength.toNat)
          (overreport n data.length))
      else .ok n
  | .error f =>
      if f.isWouldBlock then .ok 0
      else .error (.writeFailed (preview data c.settings.previewLength.toNat) f)

/-- The event of a successful write. -/
def sent (c : Connection) : Except ConnectionError Nat → Trace
  | .ok n => [.emit (.transfer .outbound c.origin n)]
  | .error _ => []

/-- Writes as much of a payload as the transport takes.  An empty payload is not offered. -/
def write (c : Connection) (t : σ) (data : Bytes) : Outcome σ (Except ConnectionError Nat) :=
  match c.state, c.handle with
  | .live, some h =>
      if data = [] then ⟨.ok 0, t, c.sent (.ok 0)⟩
      else
        let o := sendThrough h t data
        let result := c.writeResult data o.result
        ⟨result, o.transport, o.trace ++ c.sent result⟩
  | _, _ =>
      ⟨.error (.notLive (preview data c.settings.previewLength.toNat)), t, []⟩

/-! ## Reading -/

/-- Asks for octets until the call is not broken off. -/
def receiveThrough (h : Handle) (t : σ) (room : Nat) : Outcome σ (Except Fault Filled) :=
  let made := Act.call h (.receive room (Transport.receive t room).1)
  match _answer : (Transport.receive t room).1 with
  | .ok f => ⟨.ok f, (Transport.receive t room).2, [made]⟩
  | .error f =>
      if _again : f.isInterrupted = true then
        (receiveThrough h (Transport.receive t room).2 room).after [made]
      else ⟨.error f, (Transport.receive t room).2, [made]⟩
termination_by Transport.patience t
decreasing_by exact Transport.patience_receive t room f _answer _again

/-- What an answer of the transport means for a read of so many octets. -/
def readResult (c : Connection) (wanted : Nat) : Except Fault Filled → Except ConnectionError Bytes
  | .ok f => .ok (f.taken (min wanted maxReadSize))
  | .error f =>
      if f.isWouldBlock then .ok []
      else .error (.readFailed wanted c.origin f)

/-- The event of a successful read. -/
def received (c : Connection) : Except ConnectionError Bytes → Trace
  | .ok data => [.emit (.transfer .inbound c.origin data.length)]
  | .error _ => []

/-- Reads at most so many octets, and at most `maxReadSize`.  Nothing at all means that the peer has
ended, or that nothing has arrived yet. -/
def read (c : Connection) (t : σ) (wanted : Nat) : Outcome σ (Except ConnectionError Bytes) :=
  match c.state, c.handle with
  | .live, some h =>
      let o := receiveThrough h t (min wanted maxReadSize)
      let result := c.readResult wanted o.result
      ⟨result, o.transport, o.trace ++ c.received result⟩
  | _, _ => ⟨.error (.notLive ""), t, []⟩

/-- Reads at most as many octets as the settings say. -/
def readDefault (c : Connection) (t : σ) : Outcome σ (Except ConnectionError Bytes) :=
  c.read t c.settings.readSize.toNat

/-! ## Closing -/

/-- The connection without its handle. -/
def ended (c : Connection) : Connection :=
  { c with handle := none, state := .closed }

/-- An unclean close, with the event that tells of it. -/
def closeFailure (c : Connection) (reason : String) : Trace :=
  [.emit (.closeFailed c.id reason)]

/-- Ends both directions and gives the handle back.  A peer that is already gone is no fault. -/
def close (c : Connection) (t : σ) : Outcome σ (Except ConnectionError Unit) :=
  match c.handle with
  | none => ⟨.error (.closeFailed c.id "already closed"), t, c.closeFailure "already closed"⟩
  | some h =>
      let answer := (Transport.shutdown t).1
      let t := Transport.release (Transport.shutdown t).2
      let made := [Act.call h (.shutdown answer), .call h .release]
      let closed := [Act.emit (.closed c.id)]
      match answer with
      | .ok () => ⟨.ok (), t, made ++ closed⟩
      | .error f =>
          if f.kind = .notConnected then
            ⟨.ok (), t,
              made
                ++ [ .log
                      { level := .trace
                        source := .connection
                        message := "Peer disconnected before shutdown"
                        fields := [("connection_id", .number c.id)] } ]
                ++ closed⟩
          else
            ⟨.error (.closeFailed c.id f.text), t, made ++ c.closeFailure f.text ++ closed⟩

/-- Gives the handle back without closing, if it is still there. -/
def drop (c : Connection) (t : σ) : Outcome σ Unit :=
  match c.handle with
  | none => ⟨(), t, []⟩
  | some h =>
      ⟨(), Transport.release t,
        [ .log
            { level := .trace
              source := .connection
              message := "Connection dropped without close"
              fields := [("connection_id", .number c.id), ("peer", .text c.origin)] },
          .call h .release ]⟩

/-! ## Interrupting -/

/-- Makes an interrupter, with a duplicate of the handle under the given serial number. -/
def interrupter (c : Connection) (t : σ) (serial : Nat) : Outcome σ (Except Fault Interrupter) :=
  match c.handle with
  | none => ⟨.error (.custom .notConnected "connection is closed"), t, []⟩
  | some h =>
      let answer := (Transport.duplicate t).1
      ⟨answer.map fun _ => ⟨⟨h.line, serial⟩, c.id⟩, (Transport.duplicate t).2,
        [.call h (.duplicate answer)]⟩

end Connection

namespace Interrupter

variable {σ : Type} [Transport σ]

/-- Ends both directions of the transport that the connection shares. -/
def interrupt (i : Interrupter) (t : σ) : Outcome σ (Except Fault Unit) :=
  ⟨(Transport.shutdown t).1, (Transport.shutdown t).2,
    [ .log
        { level := .debug
          source := .interrupter
          message := "Interrupting connection"
          fields := [("connection_id", .number i.id)] },
      .call i.handle (.shutdown (Transport.shutdown t).1) ]⟩

/-- Gives the duplicate back. -/
def drop (i : Interrupter) (t : σ) : Outcome σ Unit :=
  ⟨(), Transport.release t, [.call i.handle .release]⟩

end Interrupter

end StreamServer
