import StreamServer.Document.Json

/-!
# Events

What a connection tells about itself: every successful transfer, that it was closed, and that closing
it did not go well.
-/

namespace StreamServer

/-- The direction of a transfer, as the server sees it. -/
inductive Direction
  | inbound
  | outbound
  deriving Repr, DecidableEq

namespace Direction

/-- The word for a direction. -/
def word : Direction → String
  | inbound => "inbound"
  | outbound => "outbound"

end Direction

/-- What a connection tells about itself. -/
inductive Event
  | transfer (direction : Direction) (peer : String) (bytes : Nat)
  | closed (id : Nat)
  | closeFailed (id : Nat) (reason : String)
  deriving Repr, DecidableEq

namespace Event

/-- An event as a table: what happened, then the particulars. -/
def toValue : Event → Value
  | transfer direction peer bytes =>
      .table
        [ ("event", .string "transfer"),
          ("direction", .string direction.word),
          ("peer", .string peer),
          ("bytes", .ofNat bytes) ]
  | closed id =>
      .table [("event", .string "closed"), ("id", .ofNat id)]
  | closeFailed id reason =>
      .table
        [ ("event", .string "close_failed"),
          ("id", .ofNat id),
          ("reason", .string reason) ]

/-- The line that records an event, without its end. -/
def line (e : Event) : List Char :=
  Json.print e.toValue

/-- The pieces in which the line of an event is written. -/
def linePieces (e : Event) : List (List Char) :=
  Json.printPieces e.toValue

end Event

end StreamServer
