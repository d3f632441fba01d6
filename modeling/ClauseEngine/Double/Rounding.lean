/-
Module: ClauseEngine.Double.Rounding
Purpose: The double nearest to an exact rational number, with ties to the even pattern. Whole
  numbers and decimal literals are read through it.
Main exports: Double.ofRatio, Double.ofInt, Double.ofDecimal
-/
import ClauseEngine.Double.Basic

namespace ClauseEngine

namespace Double

/-- The quotient rounded to the nearest whole number; a tie goes to the even one. -/
def roundQuotient (num den : Nat) : Nat :=
  let quotient := num / den
  let twice := 2 * (num % den)
  if den < twice || (twice = den && quotient % 2 = 1) then quotient + 1 else quotient

/-- Numerator and denominator of `num / (den * 2 ^ power)`. -/
def scaleByTwo (num den : Nat) (power : Int) : Nat × Nat :=
  if 0 ≤ power then (num, den * Nat.pow 2 power.toNat)
  else (num * Nat.pow 2 (-power).toNat, den)

/-- The power of two of the least positive double. -/
def leastPower : Int := -1074

/-- The power of two at which a positive rational has a 53-bit whole part, or the least power of
    the format if the number is too small for that. -/
def leadingPower (num den : Nat) : Int :=
  let guess : Int := (num.log2 : Int) - den.log2 - 52
  let (n, d) := scaleByTwo num den guess
  let power := if n / d < leadingWeight then guess - 1 else guess
  if power < leastPower then leastPower else power

/-- The magnitude of the pattern nearest to a rational with a positive denominator. A carry out of
    the significand moves into the exponent field by itself. -/
def nearestMagnitude (num den : Nat) : Nat :=
  if num = 0 then 0
  else
    let power := leadingPower num den
    let (n, d) := scaleByTwo num den power
    let significand := roundQuotient n d
    let magnitude :=
      if significand < leadingWeight then significand
      else (power - leastPower + 1).toNat * leadingWeight + (significand - leadingWeight)
    if infinityMagnitude < magnitude then infinityMagnitude else magnitude

/-- A magnitude with a sign. -/
def ofMagnitude (negative : Bool) (magnitude : Nat) : Double :=
  ⟨UInt64.ofNat (if negative then signWeight + magnitude else magnitude)⟩

/-- The double nearest to `±num / den`, for a positive denominator. -/
def ofRatio (negative : Bool) (num den : Nat) : Double :=
  ofMagnitude negative (nearestMagnitude num den)

/-- The double nearest to a whole number. -/
def ofInt (z : Int) : Double := ofRatio (z < 0) z.natAbs 1

/-- The double nearest to `±digits * 10 ^ power`. Powers so large or small that the answer is
    settled without them are not multiplied out. -/
def ofDecimal (negative : Bool) (digits : Nat) (power : Int) : Double :=
  if digits = 0 then ofMagnitude negative 0
  else if 400 < power then ofMagnitude negative infinityMagnitude
  else if power + digits.log2 < -1200 then ofMagnitude negative 0
  else if 0 ≤ power then ofRatio negative (digits * Nat.pow 10 power.toNat) 1
  else ofRatio negative digits (Nat.pow 10 (-power).toNat)

end Double

end ClauseEngine
