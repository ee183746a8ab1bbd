/-!
# Floating-point values

A binary64 value is a signed multiple of a power of two.  Two conversions are given, both in exact
arithmetic on natural numbers.

* `Binary64.nearest` rounds a decimal to the nearest value, a tie to the even significand.
* `Binary64.shortest` gives the decimal with the fewest digits that rounds back to a value, and of
  those the one nearest to it.
-/

namespace StreamServer

/--
A value of the binary64 format.  A finite value is `significand * 2 ^ exponent`, where the
significand is below `2 ^ 53` and the exponent is as small as that allows.
-/
inductive Binary64
  | nan
  | infinite (negative : Bool)
  | finite (negative : Bool) (significand : Nat) (exponent : Int)
  deriving Repr, DecidableEq

/-- The decimal `digits * 10 ^ exponent`. -/
structure Decimal where
  digits : Nat
  exponent : Int
  deriving Repr, DecidableEq

namespace Binary64

/-- The exponent of the smallest positive value. -/
def minExponent : Int := -1074

/-- The exponent of the largest finite values. -/
def maxExponent : Int := 971

/-- A quotient rounded to the nearest number, a tie to the even one. -/
def roundQuotient (num den : Nat) : Nat :=
  let q := num / den
  let r := 2 * (num % den)
  if r < den then q
  else if den < r then q + 1
  else q + q % 2

/-- The quotient `num / (den * 2 ^ e)` as a numerator and a denominator. -/
def scaleDown (num den : Nat) (e : Int) : Nat × Nat :=
  if 0 ≤ e then (num, den * Nat.pow 2 e.toNat) else (num * Nat.pow 2 (-e).toNat, den)

/-- The exponent with which the positive quotient `num / den` fills fifty-three bits. -/
def exponentOf (num den : Nat) : Int :=
  let low := max ((num.log2 : Int) - (den.log2 : Int) - 53) minExponent
  let (n, d) := scaleDown num den low
  if n / d < Nat.pow 2 53 then low else low + 1

/-- The value nearest to the positive quotient `num / den`. -/
def nearestQuotient (negative : Bool) (num den : Nat) : Binary64 :=
  let e := exponentOf num den
  let (n, d) := scaleDown num den e
  let m := roundQuotient n d
  let (m, e) := if m = Nat.pow 2 53 then (Nat.pow 2 52, e + 1) else (m, e)
  if maxExponent < e then infinite negative else finite negative m e

/--
The value nearest to a decimal.  Decimals far outside the range of the format are told by their
number of digits, so that no power of ten larger than the format needs is ever formed.
-/
def nearest (negative : Bool) (d : Decimal) : Binary64 :=
  if d.digits = 0 then finite negative 0 minExponent
  else
    let size := ((Nat.toDigits 10 d.digits).length : Int) + d.exponent
    if 310 < size then infinite negative
    else if size < -330 then finite negative 0 minExponent
    else if 0 ≤ d.exponent then
      nearestQuotient negative (d.digits * Nat.pow 10 d.exponent.toNat) 1
    else
      nearestQuotient negative d.digits (Nat.pow 10 (-d.exponent).toNat)

/-- The number of digits before the point of the positive quotient `num / den`; below one, minus the
number of zeros after the point. -/
def pointPosition (num den : Nat) : Int :=
  if den ≤ num then ((Nat.toDigits 10 (num / den)).length : Int)
  else 1 - ((Nat.toDigits 10 (den / num)).length : Int)

/-- A multiple of a power of ten over a denominator, as a numerator and a denominator. -/
def onGrid (c : Nat) (g : Int) (den : Nat) : Nat × Nat :=
  if 0 ≤ g then (c * Nat.pow 10 g.toNat * den, 1) else (c * den, Nat.pow 10 (-g).toNat)

/-- The decimals that round to a positive value: between two bounds, over one denominator. -/
structure Basin where
  low : Nat
  value : Nat
  high : Nat
  den : Nat
  closed : Bool

namespace Basin

/-- The basin of `significand * 2 ^ exponent`; below a power of two the neighbour is half as far. -/
def of (significand : Nat) (exponent : Int) : Basin :=
  let near : Nat := if significand = Nat.pow 2 52 ∧ minExponent < exponent then 1 else 2
  let e := exponent - 2
  let up := if 0 ≤ e then Nat.pow 2 e.toNat else 1
  { low := (4 * significand - near) * up
    value := 4 * significand * up
    high := (4 * significand + 2) * up
    den := if 0 ≤ e then 1 else Nat.pow 2 (-e).toNat
    closed := significand % 2 == 0 }

/-- Whether `c * 10 ^ g` rounds to the value. -/
def holds (b : Basin) (c : Nat) (g : Int) : Bool :=
  let (n, d) := onGrid c g b.den
  if b.closed then b.low * d ≤ n && n ≤ b.high * d
  else b.low * d < n && n < b.high * d

/-- Of the two neighbours of the value on a decimal grid, the one that rounds to it; of two, the
nearer. -/
def candidate? (b : Basin) (g : Int) : Option Nat :=
  let (n, d) :=
    if 0 ≤ g then (b.value, b.den * Nat.pow 10 g.toNat)
    else (b.value * Nat.pow 10 (-g).toNat, b.den)
  let below := n / d
  let above := below + 1
  match b.holds below g, b.holds above g with
  | true, true => some (if 2 * (n % d) ≤ d then below else above)
  | true, false => some below
  | false, true => some above
  | false, false => none

/-- The first grid, from `point - 1` downwards, with a decimal that rounds to the value. -/
def search (b : Basin) (g : Int) : Nat → Decimal
  | 0 => ⟨(b.candidate? g).getD 0, g⟩
  | more + 1 =>
      match b.candidate? g with
      | some c => ⟨c, g⟩
      | none => b.search (g - 1) more

end Basin

/-- A decimal without zeros at the end of its digits, looking at no more than `count` of them. -/
def trimmed (d : Decimal) : Nat → Decimal
  | 0 => d
  | count + 1 =>
      if d.digits ≠ 0 ∧ d.digits % 10 = 0 then trimmed ⟨d.digits / 10, d.exponent + 1⟩ count else d

/-- The shortest decimal that rounds to `significand * 2 ^ exponent`; seventeen digits always do. -/
def shortest (significand : Nat) (exponent : Int) : Decimal :=
  if significand = 0 then ⟨0, 0⟩
  else
    let b := Basin.of significand exponent
    trimmed (b.search (pointPosition b.value b.den - 1) 17) 20

/-- How decimals are written: inside these bounds on the position of the point without an exponent,
otherwise with one; no bounds, no exponents. -/
structure Style where
  positional : Option (Int × Int)

/-- Every decimal in full. -/
def Style.full : Style := ⟨none⟩

/-- Decimals in full while the point stands at most four places before the digits and at most
sixteen digits stand before the point. -/
def Style.compact : Style := ⟨some (-4, 16)⟩

/-- A decimal without exponent, with at least one digit on each side of the point. -/
def positionalChars (ds : List Char) (point : Int) : List Char :=
  if point ≤ 0 then
    '0' :: '.' :: List.replicate (-point).toNat '0' ++ ds
  else if (ds.length : Int) ≤ point then
    ds ++ List.replicate (point.toNat - ds.length) '0' ++ ['.', '0']
  else
    ds.take point.toNat ++ '.' :: ds.drop point.toNat

/-- A decimal with one digit before the point, and an exponent. -/
def exponentChars (ds : List Char) (point : Int) : List Char :=
  let e := point - 1
  let mantissa :=
    match ds with
    | d :: e :: rest => d :: '.' :: e :: rest
    | other => other
  mantissa ++ 'e' :: ((if e < 0 then ['-'] else []) ++ Nat.toDigits 10 e.natAbs)

/-- The text of a decimal in a style. -/
def decimalChars (style : Style) (d : Decimal) : List Char :=
  if d.digits = 0 then ['0', '.', '0']
  else
    let ds := Nat.toDigits 10 d.digits
    let point := (ds.length : Int) + d.exponent
    match style.positional with
    | none => positionalChars ds point
    | some (low, high) =>
        if low ≤ point ∧ point ≤ high then positionalChars ds point else exponentChars ds point

/-- The text of a value in a style. -/
def chars (style : Style) : Binary64 → List Char
  | nan => ['N', 'a', 'N']
  | infinite negative => (if negative then ['-'] else []) ++ ['i', 'n', 'f']
  | finite negative m e =>
      (if negative then ['-'] else []) ++ decimalChars style (shortest m e)

/-- The text of a value in a style, as a string. -/
def text (style : Style) (x : Binary64) : String :=
  String.ofList (x.chars style)

end Binary64

end StreamServer
