/-!
# Digits

Natural numbers read from digit characters.  The letters count in either case, the base bounds
which of them are digits at all.
-/

namespace StreamServer

namespace Digits

/-- The value of a digit character, up to base sixteen. -/
def value? (c : Char) : Option Nat :=
  if '0' ≤ c && c ≤ '9' then some (c.toNat - '0'.toNat)
  else if 'a' ≤ c && c ≤ 'f' then some (c.toNat - 'a'.toNat + 10)
  else if 'A' ≤ c && c ≤ 'F' then some (c.toNat - 'A'.toNat + 10)
  else none

/-- Whether a character is a digit of the base. -/
def isDigit (base : Nat) (c : Char) : Bool :=
  (value? c).any (· < base)

/-- The number written by digits after the value of the digits before them. -/
def readFrom? (base : Nat) : Nat → List Char → Option Nat
  | value, [] => some value
  | value, c :: rest =>
      match value? c with
      | some d => if d < base then readFrom? base (value * base + d) rest else none
      | none => none

/-- The number written by a list of digits; an empty list writes none. -/
def read? (base : Nat) : List Char → Option Nat
  | [] => none
  | cs => readFrom? base 0 cs

/-- The digits of a number, the most significant first, letters in lower case. -/
def write (base n : Nat) : List Char :=
  Nat.toDigits base n

/-- The decimal digits of a number. -/
def decimal (n : Nat) : List Char :=
  write 10 n

end Digits

end StreamServer
