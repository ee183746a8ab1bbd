import StreamServer.Fault
import StreamServer.Text.Quoted
import StreamServer.Text.Utf8

/-!
# Errors of a connection

Each error names what was attempted.  Errors of a write quote the beginning of the payload, octets
that are no text being shown as replacement characters.
-/

namespace StreamServer

/-- The beginning of a payload, as text. -/
def preview (data : Bytes) (limit : Nat) : String :=
  String.ofList (Utf8.decodeLossy (data.take limit))

/-- Why an operation of a connection failed. -/
inductive ConnectionError
  | notLive (preview : String)
  | writeFailed (preview : String) (source : Fault)
  | readFailed (requested : Nat) (peer : String) (source : Fault)
  | closeFailed (id : Nat) (reason : String)
  | peerUnknown (source : Fault)
  deriving Repr, DecidableEq

namespace ConnectionError

/-- What is shown to a reader, on one line. -/
def message : ConnectionError → String
  | notLive preview =>
      "could not use socket because its handle is not live: " ++ quote preview
  | writeFailed preview _ => "could not write socket: " ++ quote preview
  | readFailed requested peer _ =>
      peer ++ ": error while reading " ++ toString requested ++ " bytes of data"
  | closeFailed id reason =>
      "socket #" ++ toString id ++ " did not close cleanly: " ++ reason
  | peerUnknown source => "could not resolve peer address: " ++ source.text

/-- The fault behind an error. -/
def source? : ConnectionError → Option Fault
  | notLive _ => none
  | writeFailed _ source => some source
  | readFailed _ _ source => some source
  | closeFailed .. => none
  | peerUnknown source => some source

/-- Whether the connection is of no further use.  An unclean close is the only error after which
nothing is left to give up. -/
def isFatal : ConnectionError → Bool
  | closeFailed .. => false
  | _ => true

end ConnectionError

end StreamServer
