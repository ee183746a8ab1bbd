import StreamServer.Address
import StreamServer.Settings
import StreamServer.Text.Quoted

/-!
# Valid settings

Settings can be well-formed and still be of no use.  Every condition is checked, each on its own, and
the violations are listed in a fixed order.
-/

namespace StreamServer

/-- A condition that settings do not meet. -/
inductive Violation
  | readSizeZero
  | readSizeTooLarge
  | previewLengthZero
  | bindAddress (given : String)
  | maxConnectionsZero
  | metricsAddress (given : String)
  deriving Repr, DecidableEq

namespace Violation

/-- The path of the field that is at fault. -/
def field : Violation → String
  | readSizeZero => "connection.read_size"
  | readSizeTooLarge => "connection.read_size"
  | previewLengthZero => "connection.preview_len"
  | bindAddress _ => "listener.bind_address"
  | maxConnectionsZero => "listener.max_connections"
  | metricsAddress _ => "observability.metrics_address"

/-- What is wrong with the field. -/
def message : Violation → String
  | readSizeZero => "must be greater than 0"
  | readSizeTooLarge => "must be at most " ++ toString maxReadSize
  | previewLengthZero => "must be greater than 0"
  | bindAddress given => "invalid socket address " ++ quote given
  | maxConnectionsZero => "must be greater than 0"
  | metricsAddress given => "invalid socket address " ++ quote given

/-- The field and what is wrong with it. -/
def text (v : Violation) : String :=
  v.field ++ ": " ++ v.message

/-- The form of a violation in which every part is named. -/
def details (v : Violation) : String :=
  "ValidationError \x7b field: " ++ quote v.field ++ ", message: " ++ quote v.message ++ " \x7d"

end Violation

namespace Settings

/-- Whether a text writes a socket address. -/
def isAddress (s : String) : Bool :=
  (SocketAddress.parse? s).isSome

/-- What is wrong with the size of reads. -/
def readSizeViolations (s : Settings) : List Violation :=
  if s.connection.readSize = 0 then [.readSizeZero]
  else if maxReadSize < s.connection.readSize.toNat then [.readSizeTooLarge]
  else []

/-- What is wrong with the length of previews. -/
def previewLengthViolations (s : Settings) : List Violation :=
  if s.connection.previewLength = 0 then [.previewLengthZero] else []

/-- What is wrong with the address to listen on. -/
def bindAddressViolations (s : Settings) : List Violation :=
  if isAddress s.listener.bindAddress then [] else [.bindAddress s.listener.bindAddress]

/-- What is wrong with the number of connections. -/
def maxConnectionsViolations (s : Settings) : List Violation :=
  if s.listener.maxConnections = 0 then [.maxConnectionsZero] else []

/-- What is wrong with the address of the counters, which matters only if they are published. -/
def metricsAddressViolations (s : Settings) : List Violation :=
  if s.report.metricsEnabled && !isAddress s.report.metricsAddress then
    [.metricsAddress s.report.metricsAddress]
  else []

/-- Everything that is wrong with the settings, in a fixed order. -/
def violations (s : Settings) : List Violation :=
  s.readSizeViolations ++ s.previewLengthViolations ++ s.bindAddressViolations
    ++ s.maxConnectionsViolations ++ s.metricsAddressViolations

/-- The settings, unless something is wrong with them. -/
def validate (s : Settings) : Except (List Violation) Settings :=
  match s.violations with
  | [] => .ok s
  | vs => .error vs

end Settings

end StreamServer
