import StreamServer.Number.Binary64

/-!
# Documents

The value tree that configuration texts and log records are read into and written from.  A table
keeps its entries in the order in which the text gives them.
-/

namespace StreamServer

/-- A value of a structured text. -/
inductive Value
  | null
  | bool (b : Bool)
  | integer (i : Int)
  | real (x : Binary64)
  | string (s : String)
  | moment
  | list (items : List Value)
  | table (entries : List (String × Value))
  deriving Repr, Inhabited

namespace Value

/-- A natural number as a value. -/
def ofNat (n : Nat) : Value :=
  integer n

/-- The first value that a list of entries gives to a key. -/
def lookup? (key : String) (entries : List (String × Value)) : Option Value :=
  (entries.find? fun e => e.1 == key).map Prod.snd

/-- The value at a key of a table. -/
def get? (key : String) : Value → Option Value
  | table entries => lookup? key entries
  | _ => none

end Value

end StreamServer
