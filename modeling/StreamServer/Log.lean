import StreamServer.Document
import StreamServer.Text.Quoted

/-!
# Log records

A record has a level, the part of the program it comes from, a message and named fields.  It is
written either on one readable line or as a table.
-/

namespace StreamServer

/-- How much a record matters. -/
inductive LogLevel
  | trace
  | debug
  | info
  | warn
  | error
  deriving Repr, DecidableEq

namespace LogLevel

/-- The word for a level. -/
def word : LogLevel → String
  | trace => "TRACE"
  | debug => "DEBUG"
  | info => "INFO"
  | warn => "WARN"
  | error => "ERROR"

/-- The rank of a level; the more a record matters, the lower. -/
def rank : LogLevel → Nat
  | error => 1
  | warn => 2
  | info => 3
  | debug => 4
  | trace => 5

end LogLevel

/-- The part of the program that a record comes from. -/
inductive LogSource
  | program
  | connection
  | interrupter
  | listener
  | echo
  | events
  | metrics
  | shutdown
  | signals
  deriving Repr, DecidableEq

namespace LogSource

/-- The path under which a part of the program is filtered and shown. -/
def path : LogSource → String
  | program => "socket_conn"
  | connection => "socket_conn::net::connection"
  | interrupter => "socket_conn::net::transport"
  | listener => "socket_conn::net::listener"
  | echo => "socket_conn::net::echo"
  | events => "socket_conn::observability::events"
  | metrics => "socket_conn::observability::metrics"
  | shutdown => "socket_conn::lifecycle::shutdown"
  | signals => "socket_conn::lifecycle::signals"

end LogSource

/-- The value of a field: a number, a text shown as it is, or a word shown in quotes. -/
inductive LogValue
  | number (n : Nat)
  | text (s : String)
  | word (s : String)
  deriving Repr, DecidableEq

namespace LogValue

/-- A field's value in a table. -/
def toValue : LogValue → Value
  | number n => .ofNat n
  | text s => .string s
  | word s => .string s

/-- A field's value on a readable line. -/
def shown : LogValue → String
  | number n => toString n
  | text s => s
  | word s => quote s

end LogValue

/-- A log record. -/
structure LogRecord where
  level : LogLevel
  source : LogSource
  message : String
  fields : List (String × LogValue) := []
  deriving Repr, DecidableEq

namespace LogRecord

/-- A record on one readable line. -/
def line (r : LogRecord) : String :=
  r.level.word ++ " " ++ r.source.path ++ ": " ++ r.message
    ++ String.join (r.fields.map fun f => " " ++ f.1 ++ "=" ++ f.2.shown)

/-- A record as a table. -/
def toValue (r : LogRecord) : Value :=
  .table
    [ ("level", .string r.level.word),
      ("fields", .table (("message", .string r.message) :: r.fields.map fun f => (f.1, f.2.toValue))),
      ("target", .string r.source.path) ]

end LogRecord

end StreamServer
