/-
Module: ClauseEngine.Double.Shortest
Purpose: The shortest decimal that reads back as a given double. Among the decimals of the least
  number of digits that round to the number, the nearest is taken, and the even one in a tie.
  Everything is exact arithmetic on natural numbers.
Main exports: Decimal, Double.shortest, Double.plainText
-/
import ClauseEngine.Double.Basic

namespace ClauseEngine

/-- A decimal `d.ddd * 10 ^ exponent` by its significant digits, most significant first. -/
structure Decimal where
  digits : List Char
  exponent : Int
deriving DecidableEq, Repr

namespace Decimal

/-- The digits before and after the decimal point in positional notation. The first part is never
    empty; the second is empty for a whole number. -/
def positional (d : Decimal) : List Char × List Char :=
  if d.exponent < 0 then
    (['0'], List.replicate (-d.exponent - 1).toNat '0' ++ d.digits)
  else
    let width := d.exponent.toNat + 1
    (d.digits.take width ++ List.replicate (width - d.digits.length) '0', d.digits.drop width)

/-- The decimal `coefficient * 10 ^ power`, without trailing zeros. -/
def ofCoefficient (coefficient : Nat) (power : Int) : Decimal :=
  let written := Nat.toDigits 10 coefficient
  let significant := (written.reverse.dropWhile (· == '0')).reverse
  ⟨if significant.isEmpty then ['0'] else significant, power + (written.length - 1)⟩

end Decimal

namespace Double

/-- The reals that round to a finite positive double, as whole multiples of a common unit: the
    number itself and the two ends. An end belongs to the interval if the significand is even. -/
structure RoundingInterval where
  low : Nat
  value : Nat
  high : Nat
  unit : Nat
  closed : Bool
deriving DecidableEq, Repr

/-- The rounding interval, measured in quarters of the last place. Below a power of two the
    neighbour is only half as far away. -/
def roundingInterval (x : Double) : RoundingInterval :=
  let m := x.significand
  let power := x.exponent - 2
  let below := if m = leadingWeight && 1 < x.exponentField then 1 else 2
  let factor := if 0 ≤ power then Nat.pow 2 power.toNat else 1
  let unit := if 0 ≤ power then 1 else Nat.pow 2 (-power).toNat
  ⟨(4 * m - below) * factor, 4 * m * factor, (4 * m + 2) * factor, unit, m % 2 = 0⟩

namespace RoundingInterval

/-- The same interval with all its numbers divided by a power of ten. -/
def scale (i : RoundingInterval) (power : Int) : RoundingInterval :=
  if 0 ≤ power then { i with unit := i.unit * Nat.pow 10 power.toNat }
  else
    let factor := Nat.pow 10 (-power).toNat
    { i with low := i.low * factor, value := i.value * factor, high := i.high * factor }

/-- The decimal exponent of the number: the power of ten of its first digit. -/
def leadingExponent (i : RoundingInterval) : Int :=
  if i.unit ≤ i.value then (Nat.toDigits 10 (i.value / i.unit)).length - 1
  else
    let count := (Nat.toDigits 10 (i.unit / i.value)).length - 1
    if i.value * Nat.pow 10 count = i.unit then -(count : Int) else -(count + 1 : Int)

/-- The whole number next to the value that lies in the interval. Of two, the nearer is taken, and
    the even one in a tie. -/
def wholeInside? (i : RoundingInterval) : Option Nat :=
  let below := i.value / i.unit
  let rest := i.value % i.unit
  let lowInside := i.low < below * i.unit || (i.closed && i.low = below * i.unit)
  let above := (below + 1) * i.unit
  let highInside := above < i.high || (i.closed && above = i.high)
  let nearerBelow := 2 * rest < i.unit || (2 * rest = i.unit && below % 2 = 0)
  if lowInside && (!highInside || nearerBelow) then some below
  else if highInside then some (below + 1)
  else none

end RoundingInterval

/-- The shortest decimal of the magnitude of a finite double. Seventeen digits always suffice. -/
def shortest (x : Double) : Decimal :=
  if x.magnitude = 0 then ⟨['0'], 0⟩
  else
    let interval := x.roundingInterval
    let leading := interval.leadingExponent
    let found := (List.range 17).findSome? fun (extra : Nat) =>
      let power := leading - extra
      ((interval.scale power).wholeInside?).map (Decimal.ofCoefficient · power)
    found.getD ⟨['0'], 0⟩

/-- The sign as written before a magnitude. -/
def signText (x : Double) : List Char := if x.isNegative then ['-'] else []

/-- Positional text that never uses an exponent and omits an empty fraction. -/
def plainText (x : Double) : String :=
  if x.isNaN then "NaN"
  else if x.isInfinite then String.ofList (x.signText ++ ['i', 'n', 'f'])
  else
    let (whole, fraction) := x.shortest.positional
    String.ofList (x.signText ++ whole ++ if fraction.isEmpty then [] else '.' :: fraction)

end Double

end ClauseEngine
