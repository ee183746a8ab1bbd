import StreamServer.Document

/-!
# Settings

What the server can be told: how a connection reads and quotes, where the server listens and how many
connections it serves at once, and how it reports.  Every setting has a default, so nothing has to be
told.
-/

namespace StreamServer

/-- How a connection reads, and how much of a payload its errors quote. -/
structure ConnectionSettings where
  readSize : UInt64 := 1500
  previewLength : UInt64 := 30
  deriving Repr, DecidableEq

/-- The largest buffer that one read fills. -/
def maxReadSize : Nat := 65536

/-- Where the server listens and how many connections it serves at once. -/
structure ListenerSettings where
  bindAddress : String := "127.0.0.1:7000"
  maxConnections : UInt64 := 1024
  deriving Repr, DecidableEq

/-- How log records are written. -/
inductive LogFormat
  | pretty
  | json
  deriving Repr, DecidableEq

namespace LogFormat

/-- The word for a format. -/
def word : LogFormat → String
  | pretty => "pretty"
  | json => "json"

/-- The format that a word names. -/
def ofWord? (s : String) : Option LogFormat :=
  if s = "pretty" then some pretty
  else if s = "json" then some json
  else none

theorem ofWord?_word (f : LogFormat) : ofWord? f.word = some f := by
  cases f <;> rfl

end LogFormat

/-- What is reported, in which form, and whether counters are published. -/
structure ReportSettings where
  logLevel : String := "socket_conn=debug"
  logFormat : LogFormat := .pretty
  metricsEnabled : Bool := false
  metricsAddress : String := "127.0.0.1:9100"
  deriving Repr, DecidableEq

/-- All settings. -/
structure Settings where
  connection : ConnectionSettings := {}
  listener : ListenerSettings := {}
  report : ReportSettings := {}
  deriving Repr, DecidableEq

namespace Settings

/-- The settings as a document: one table for each section. -/
def toValue (s : Settings) : Value :=
  .table
    [ ("connection", .table
        [ ("read_size", .ofNat s.connection.readSize.toNat),
          ("preview_len", .ofNat s.connection.previewLength.toNat) ]),
      ("listener", .table
        [ ("bind_address", .string s.listener.bindAddress),
          ("max_connections", .ofNat s.listener.maxConnections.toNat) ]),
      ("observability", .table
        [ ("log_level", .string s.report.logLevel),
          ("log_format", .string s.report.logFormat.word),
          ("metrics_enabled", .bool s.report.metricsEnabled),
          ("metrics_address", .string s.report.metricsAddress) ]) ]

end Settings

end StreamServer
