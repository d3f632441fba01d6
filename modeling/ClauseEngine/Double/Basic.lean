/-
Module: ClauseEngine.Double.Basic
Purpose: Double-precision numbers as their 64 bits. The order, the sign and the exact rational
  value are read off the bits, so that both zeros, both infinities and every NaN are ordinary
  data; only rounded arithmetic goes through the machine's floating-point operations.
Main exports: Double, Double.rank, Double.order, Double.isNaN, Double.isFinite,
  Double.significand, Double.exponent, Double.truncate?, and the arithmetic operations
-/
namespace ClauseEngine

/-- A double-precision number, given by its bit pattern. -/
structure Double where
  bits : UInt64
deriving DecidableEq, Repr, Inhabited

namespace Double

/-- The weight of the sign bit in a pattern. -/
def signWeight : Nat := 0x8000000000000000

/-- The weight of the lowest exponent bit, which is also that of the implicit leading bit. -/
def leadingWeight : Nat := 0x10000000000000

/-- The pattern of positive infinity. Every larger magnitude is a NaN. -/
def infinityMagnitude : Nat := 0x7ff0000000000000

/-- The pattern without its sign bit. -/
def magnitude (x : Double) : Nat := x.bits.toNat % signWeight

/-- The sign bit. It is set for negative zero and for some NaNs as well. -/
def isNegative (x : Double) : Bool := signWeight ≤ x.bits.toNat

def isNaN (x : Double) : Bool := infinityMagnitude < x.magnitude

def isInfinite (x : Double) : Bool := x.magnitude = infinityMagnitude

def isFinite (x : Double) : Bool := x.magnitude < infinityMagnitude

def zero : Double := ⟨0⟩

def infinity : Double := ⟨0x7ff0000000000000⟩

def negInfinity : Double := ⟨0xfff0000000000000⟩

/-- The quiet NaN with a clear sign and no payload. -/
def nan : Double := ⟨0x7ff8000000000000⟩

/-- The place of a number in the order: its magnitude, counted downwards when the sign is set. The
    two zeros share a place, a NaN lies beyond the infinity of its sign. -/
def rank (x : Double) : Int := if x.isNegative then -(x.magnitude : Int) else x.magnitude

/-- The total order of the patterns by rank. On numbers that are no NaN it is the numeric order. -/
def order (x y : Double) : Ordering := compare x.rank y.rank

/-- Numeric comparison: a NaN is neither below nor above anything. -/
def lt (x y : Double) : Bool := !x.isNaN && !y.isNaN && x.rank < y.rank

/-- Numeric comparison up to equality. A NaN is not even related to itself. -/
def le (x y : Double) : Bool := !x.isNaN && !y.isNaN && x.rank ≤ y.rank

/-- The exponent field of the pattern. -/
def exponentField (x : Double) : Nat := x.magnitude / leadingWeight

/-- The whole number `m` of a finite value `m * 2 ^ q`. -/
def significand (x : Double) : Nat :=
  if x.exponentField = 0 then x.magnitude else x.magnitude % leadingWeight + leadingWeight

/-- The power `q` of a finite value `m * 2 ^ q`. -/
def exponent (x : Double) : Int :=
  if x.exponentField = 0 then -1074 else (x.exponentField : Int) - 1075

/-- The whole part of a finite number, rounded towards zero. -/
def truncate? (x : Double) : Option Int :=
  if x.isFinite then
    let whole : Nat :=
      if 0 ≤ x.exponent then x.significand * Nat.pow 2 x.exponent.toNat
      else x.significand / Nat.pow 2 (-x.exponent).toNat
    some (if x.isNegative then -(whole : Int) else whole)
  else none

/-- The same number with the sign bit flipped. -/
def neg (x : Double) : Double := ⟨x.bits ^^^ 0x8000000000000000⟩

/-- The same number with the sign bit cleared. -/
def abs (x : Double) : Double := ⟨x.bits &&& 0x7fffffffffffffff⟩

/-- The lesser of two numbers. A NaN gives way to the other operand. -/
def min (x y : Double) : Double :=
  if x.isNaN then y else if y.lt x then y else x

/-- The greater of two numbers. A NaN gives way to the other operand. -/
def max (x y : Double) : Double :=
  if x.isNaN then y else if x.lt y then y else x

/-- The machine number with these bits. -/
def toFloat (x : Double) : Float := Float.ofBits x.bits

/-- The bits of a machine number. -/
def ofFloat (f : Float) : Double := ⟨f.toBits⟩

/-- Sum, rounded to nearest. -/
def add (x y : Double) : Double := ofFloat (x.toFloat + y.toFloat)

/-- Difference, rounded to nearest. -/
def sub (x y : Double) : Double := ofFloat (x.toFloat - y.toFloat)

/-- Product, rounded to nearest. -/
def mul (x y : Double) : Double := ofFloat (x.toFloat * y.toFloat)

/-- Quotient, rounded to nearest. A zero divisor gives an infinity or a NaN. -/
def div (x y : Double) : Double := ofFloat (x.toFloat / y.toFloat)

/-- Power, as the machine's mathematical library has it. -/
def pow (x y : Double) : Double := ofFloat (x.toFloat.pow y.toFloat)

/-- Square root, rounded to nearest. -/
def sqrt (x : Double) : Double := ofFloat x.toFloat.sqrt

/-- The greatest whole number not above. -/
def floor (x : Double) : Double := ofFloat x.toFloat.floor

/-- The least whole number not below. -/
def ceil (x : Double) : Double := ofFloat x.toFloat.ceil

end Double

end ClauseEngine
