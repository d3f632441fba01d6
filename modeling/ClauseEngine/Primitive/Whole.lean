/-
Module: ClauseEngine.Primitive.Whole
Purpose: Operators on whole numbers. Results are computed exactly and refused if they do not fit.
  Division is done on words: they divide towards zero, and the quotient is stepped down from there.
Main exports: Whole.plus, Whole.minus, Whole.times, Whole.quotient, Whole.remainder,
  Whole.magnitude, Whole.least, Whole.greatest, Whole.test, Whole.sum, Whole.ofFloat
-/
import ClauseEngine.Value.Access

namespace ClauseEngine

namespace Whole

/-- The word that checked arithmetic gives, or the overflow if it gives none. -/
def orOverflow (word : Option Int64) (error : Overflow) : Result Int64 :=
  match word with
  | some n => .ok n
  | none => .error (.overflow error)

/-- An exact result as a value, or the overflow it causes. -/
def checked (z : Int) (error : Overflow) : Result Value := do
  return .nat (← orOverflow (Integer.ofInt? z) error)

/-- A binary operator by its exact meaning. -/
def exact (operator : String) (f : Int → Int → Int) (a b : Value) : Result Value := do
  let x ← a.asNat
  let y ← b.asNat
  checked (f x.toInt y.toInt) (.binary operator x y)

def plus : Value → Value → Result Value := exact "nat_plus" (· + ·)

def minus : Value → Value → Result Value := exact "nat_minus" (· - ·)

def times : Value → Value → Result Value := exact "nat_mult" (· * ·)

/-- The quotient, rounded down. -/
def quotient (a b : Value) : Result Value := do
  let x ← a.asNat
  let y ← b.asNat
  if y = 0 then throw (.divisionByZero "nat_div")
  let q ← orOverflow (Integer.div? x y) (.binary "nat_div" x y)
  -- Words are divided towards zero. Step down where the signs differ.
  if x % y != 0 && (decide (x < 0) != decide (y < 0)) then return .nat (q - 1) else return .nat q

/-- The remainder that goes with the quotient rounded towards zero, so it has the sign of the
    dividend. It overflows when that quotient does. -/
def remainder (a b : Value) : Result Value := do
  let x ← a.asNat
  let y ← b.asNat
  if y = 0 then throw (.divisionByZero "nat_rem")
  return .nat (← orOverflow (Integer.rem? x y) (.binary "nat_rem" x y))

def magnitude (a : Value) : Result Value := do
  let x ← a.asNat
  checked x.toInt.natAbs (.unary "nat_abs" x)

def least (a b : Value) : Result Value := do
  let x ← a.asNat
  let y ← b.asNat
  return .nat (if y.toInt < x.toInt then y else x)

def greatest (a b : Value) : Result Value := do
  let x ← a.asNat
  let y ← b.asNat
  return .nat (if x.toInt ≤ y.toInt then y else x)

/-- A test of the order of two numbers. -/
def test (accepts : Ordering → Bool) (a b : Value) : Result Value := do
  let x ← a.asNat
  let y ← b.asNat
  return .bool (accepts (compare x.toInt y.toInt))

/-- Add the items to a running total, from the left. Every intermediate total has to fit. -/
def sumFrom (total : Int64) : List Value → Result Int64
  | [] => .ok total
  | item :: rest => do
      let x ← item.asNat
      match Integer.ofInt? (total.toInt + x.toInt) with
      | some next => sumFrom next rest
      | none => .error (.overflow (.total "nat_sum"))

def sum (a : Value) : Result Value := do
  return .nat (← sumFrom 0 (← a.asSeq))

/-- The whole part of a double, rounded towards zero. -/
def ofFloat (a : Value) : Result Value := do
  let x ← a.asFloat
  match x.truncate?.bind Integer.ofInt? with
  | some n => return .nat n
  | none => throw (.overflow (.truncation "nat_of_float" x))

end Whole

end ClauseEngine
