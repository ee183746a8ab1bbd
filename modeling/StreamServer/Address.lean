import StreamServer.Text.Digits
import StreamServer.Text.Pieces

/-!
# Socket addresses

The text of an address is `a.b.c.d:port`, `[groups]:port` or `[groups%scope]:port`.  The four octets
are decimal without leading zeros.  The groups are eight hexadecimal numbers of at most four digits
with colons between them, where `::` stands for one group of zero or more, and where the last two
groups may be written as four octets.  Port and scope are decimal, with any number of leading zeros.
-/

namespace StreamServer

/-- The address of one end of a connection. -/
inductive SocketAddress
  | v4 (octets : List UInt8) (port : UInt16)
  | v6 (groups : List UInt16) (scope : UInt32) (port : UInt16)
  deriving Repr, DecidableEq

namespace SocketAddress

/-- The parts of a text before and after the first double colon. -/
def cutGap? : List Char → Option (List Char × List Char)
  | ':' :: ':' :: rest => some ([], rest)
  | c :: rest => (cutGap? rest).map fun p => (c :: p.1, p.2)
  | [] => none

/-- A decimal number below a limit, with any number of leading zeros. -/
def decimalBelow? (limit : Nat) (ds : List Char) : Option Nat :=
  match Digits.read? 10 ds with
  | some n => if n < limit then some n else none
  | none => none

/-- A port number. -/
def port? (ds : List Char) : Option UInt16 :=
  (decimalBelow? UInt16.size ds).map UInt16.ofNat

/-- A scope number. -/
def scope? (ds : List Char) : Option UInt32 :=
  (decimalBelow? UInt32.size ds).map UInt32.ofNat

/-- One of four octets: at most three digits, a zero only alone. -/
def octet? (ds : List Char) : Option UInt8 :=
  if 3 < ds.length then none
  else if ds.head? = some '0' ∧ 1 < ds.length then none
  else (decimalBelow? UInt8.size ds).map UInt8.ofNat

/-- Four octets with points between them. -/
def octets? (cs : List Char) : Option (List UInt8) :=
  let ps := pieces '.' cs
  if ps.length = 4 then ps.mapM octet? else none

/-- One group of at most four hexadecimal digits. -/
def group? (ds : List Char) : Option UInt16 :=
  if 4 < ds.length then none else (Digits.read? 16 ds).map UInt16.ofNat

/-- The two groups that four octets fill. -/
def pairUp : List UInt8 → List UInt16
  | a :: b :: rest => UInt16.ofNat (a.toNat * 256 + b.toNat) :: pairUp rest
  | _ => []

/-- Groups with colons between them, of which the last may be four octets. -/
def groupsOfPieces? : List (List Char) → Option (List UInt16)
  | [] => some []
  | [p] =>
      match group? p with
      | some g => some [g]
      | none => (octets? p).map pairUp
  | p :: ps =>
      match group? p, groupsOfPieces? ps with
      | some g, some gs => some (g :: gs)
      | _, _ => none

/-- The groups after a gap; there may be none. -/
def groupsAfter? (cs : List Char) : Option (List UInt16) :=
  if cs = [] then some [] else groupsOfPieces? (pieces ':' cs)

/-- The groups before a gap, none of them as octets; there may be none. -/
def groupsBefore? (cs : List Char) : Option (List UInt16) :=
  if cs = [] then some [] else (pieces ':' cs).mapM group?

/-- The eight groups of an address. -/
def groups? (cs : List Char) : Option (List UInt16) :=
  match cutGap? cs with
  | none =>
      match groupsOfPieces? (pieces ':' cs) with
      | some gs => if gs.length = 8 then some gs else none
      | none => none
  | some (before, after) =>
      match groupsBefore? before, groupsAfter? after with
      | some l, some r =>
          if l.length + r.length < 8 then
            some (l ++ List.replicate (8 - (l.length + r.length)) 0 ++ r)
          else none
      | _, _ => none

/-- The groups of an address and its scope, which is zero unless given. -/
def scoped? (cs : List Char) : Option (List UInt16 × UInt32) :=
  match cut? '%' cs with
  | none => (groups? cs).map fun gs => (gs, 0)
  | some (address, scope) =>
      match groups? address, scope? scope with
      | some gs, some s => some (gs, s)
      | _, _ => none

/-- The address that a list of characters writes. -/
def ofChars? : List Char → Option SocketAddress
  | '[' :: cs =>
      match cut? ']' cs with
      | some (inside, ':' :: port) =>
          match scoped? inside, port? port with
          | some (gs, s), some p => some (.v6 gs s p)
          | _, _ => none
      | _ => none
  | cs =>
      match cut? ':' cs with
      | some (host, port) =>
          match octets? host, port? port with
          | some os, some p => some (.v4 os p)
          | _, _ => none
      | none => none

/-- The address that a text writes. -/
def parse? (s : String) : Option SocketAddress :=
  ofChars? s.toList

/-- The start and the length of the first longest run of zero groups. -/
def longestGap (gs : List UInt16) : Nat × Nat :=
  let run (i : Nat) : Nat := ((gs.drop i).takeWhile (· == 0)).length
  (List.range gs.length).foldl (fun best i => if best.2 < run i then (i, run i) else best) (0, 0)

/-- Groups in hexadecimal with colons between them. -/
def groupsText (gs : List UInt16) : String :=
  ":".intercalate (gs.map fun g => String.ofList (Digits.write 16 g.toNat))

/-- Octets in decimal with points between them. -/
def octetsText (os : List UInt8) : String :=
  ".".intercalate (os.map fun o => String.ofList (Digits.decimal o.toNat))

/-- The text of an address without its port: the longest gap of two groups or more is left out, and
a mapped address shows its octets. -/
def hostText : SocketAddress → String
  | v4 os _ => octetsText os
  | v6 gs scope _ =>
      let body :=
        match gs with
        | [0, 0, 0, 0, 0, 0xFFFF, g, h] =>
            "::ffff:" ++ octetsText
              ([g.toNat / 256, g.toNat % 256, h.toNat / 256, h.toNat % 256].map UInt8.ofNat)
        | _ =>
            let (start, length) := longestGap gs
            if 2 ≤ length then
              groupsText (gs.take start) ++ "::" ++ groupsText (gs.drop (start + length))
            else groupsText gs
      if scope = 0 then body else body ++ "%" ++ String.ofList (Digits.decimal scope.toNat)

/-- The port of an address. -/
def port : SocketAddress → UInt16
  | v4 _ p => p
  | v6 _ _ p => p

/-- The text of an address. -/
def text (a : SocketAddress) : String :=
  let p := String.ofList (Digits.decimal a.port.toNat)
  match a with
  | v4 .. => a.hostText ++ ":" ++ p
  | v6 .. => "[" ++ a.hostText ++ "]:" ++ p

end SocketAddress

end StreamServer
