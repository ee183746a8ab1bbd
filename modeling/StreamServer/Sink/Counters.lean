import StreamServer.Event

/-!
# Counters

Totals over events: octets and transfers in each direction, connections closed, and closes that went
wrong.  A total is the sum of its increments, in sixty-four bits; a counter that was never touched
has none.
-/

namespace StreamServer

/-- What is counted. -/
inductive Metric
  | bytes (direction : Direction)
  | transfers (direction : Direction)
  | closed
  | closeFailures
  deriving Repr, DecidableEq

namespace Metric

/-- Everything that is counted. -/
def all : List Metric :=
  [ .bytes .inbound, .bytes .outbound, .transfers .inbound, .transfers .outbound,
    .closed, .closeFailures ]

/-- The name under which a total is published. -/
def name : Metric → String
  | bytes d => "conn_bytes_total\x7bdirection=" ++ d.word ++ "\x7d"
  | transfers d => "conn_transfers_total\x7bdirection=" ++ d.word ++ "\x7d"
  | closed => "conn_closed_total"
  | closeFailures => "conn_close_failures_total"

end Metric

/-- The increments made so far, the latest first. -/
abbrev Counters := List (Metric × UInt64)

namespace Counters

/-- The increments that an event makes. -/
def ofEvent : Event → List (Metric × UInt64)
  | .transfer direction _ n => [(.transfers direction, 1), (.bytes direction, UInt64.ofNat n)]
  | .closed _ => [(.closed, 1)]
  | .closeFailed .. => [(.closeFailures, 1)]

/-- The counters after an event. -/
def count (c : Counters) (e : Event) : Counters :=
  ofEvent e ++ c

/-- The increments of one counter. -/
def increments (c : Counters) (m : Metric) : List UInt64 :=
  (c.filter fun i => i.1 == m).map Prod.snd

/-- The total of a counter that was touched. -/
def total? (c : Counters) (m : Metric) : Option UInt64 :=
  match c.increments m with
  | [] => none
  | is => some (is.foldr (· + ·) 0)

/-- The totals of all counters that were touched. -/
def totals (c : Counters) : List (Metric × UInt64) :=
  Metric.all.filterMap fun m => (c.total? m).map fun n => (m, n)

end Counters

end StreamServer
