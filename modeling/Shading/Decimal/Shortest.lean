import Shading.Decimal.Binary
/-!
The shortest decimal that reads back as a given binary magnitude.

A decimal reads back as the magnitude when it lies in the interval of the numbers that are
rounded to it. The interval includes its ends when the mantissa is even, since ties are rounded
to even mantissas. Decimals are tried on coarser grids first. On each grid only the two
neighbours of the magnitude matter: if any point of the grid lies in the interval, one of these
does.
-/

namespace Shading.Decimal

structure Numeral where
  coefficient : Nat
  exponent    : Int
  deriving DecidableEq

def digitCount (n : Nat) : Nat :=
  if n = 0 then 0 else (Nat.toDigits 10 n).length

structure Interval where
  low         : Nat
  value       : Nat
  high        : Nat
  denominator : Nat
  closed      : Bool

namespace Interval

-- The interval of the numbers that are rounded to a magnitude, in quarters of its last place.
def ofBinary (b : Binary) : Interval :=
  let below := if b.narrowBelow then 1 else 2
  let scale := Nat.pow 2 (b.exponent - 2).toNat
  {
    low         := (4 * b.mantissa - below) * scale
    value       := 4 * b.mantissa * scale
    high        := (4 * b.mantissa + 2) * scale
    denominator := .pow 2 (2 - b.exponent).toNat
    closed      := b.mantissa % 2 == 0
  }

def inUnits (i : Interval) (exponent : Int) : Interval :=
  let up := Nat.pow 10 (-exponent).toNat
  {
    low         := i.low * up
    value       := i.value * up
    high        := i.high * up
    denominator := i.denominator * .pow 10 exponent.toNat
    closed      := i.closed
  }

def contains (i : Interval) (n : Nat) : Bool :=
  let n := n * i.denominator
  if i.closed then i.low ≤ n && n ≤ i.high else i.low < n && n < i.high

def magnitude (i : Interval) : Int :=
  if i.denominator ≤ i.value then digitCount (i.value / i.denominator)
  else 1 - (digitCount ((i.denominator - 1) / i.value) : Int)

-- The integer in the interval that is nearest to the value. The larger one wins a tie.
def nearest? (i : Interval) : Option Nat :=
  let floor := i.value / i.denominator
  let upper := i.denominator ≤ 2 * (i.value % i.denominator)
  match i.contains floor, i.contains (floor + 1) with
  | true, true   => some (if upper then floor + 1 else floor)
  | true, false  => some floor
  | false, true  => some (floor + 1)
  | false, false => none

-- Tries grids that are finer by one digit at a time, for at most the given number of digits.
def search (i : Interval) (exponent : Int) : Nat → Numeral
  | 0          => ⟨(i.inUnits exponent).value / (i.inUnits exponent).denominator, exponent⟩
  | digits + 1 =>
    match (i.inUnits exponent).nearest? with
    | some coefficient => ⟨coefficient, exponent⟩
    | none             => i.search (exponent - 1) digits

end Interval

-- Seventeen digits tell any two values of the double format apart.
def maxDigits : Nat := 17

-- The decimal with the fewest digits that reads back as the magnitude, nearest to it.
def shortest (b : Binary) : Numeral :=
  if b.mantissa = 0 then ⟨0, 0⟩
  else
    let i := Interval.ofBinary b
    i.search (i.magnitude - 1) maxDigits

def padLeft (width : Nat) (digits : List Char) : List Char :=
  List.replicate (width - digits.length) '0' ++ digits

def dropZeros (digits : List Char) : List Char :=
  (digits.reverse.dropWhile (· = '0')).reverse

-- The decimal without an exponent. The point is always there, with a digit on both sides.
def Numeral.positional (d : Numeral) : String :=
  let places := (-d.exponent).toNat
  let whole := d.coefficient * .pow 10 d.exponent.toNat / .pow 10 places
  let fraction :=
    dropZeros (padLeft places (Nat.toDigits 10 (d.coefficient % .pow 10 places)))
  String.ofList (Nat.toDigits 10 whole ++ '.' :: if fraction.isEmpty then ['0'] else fraction)

end Shading.Decimal
