/-
Module: ClauseEngine.Primitive.Floating
Purpose: Operators on doubles. They never fail on numbers: a division by zero gives an infinity or
  a NaN.
Main exports: Floating.binary, Floating.unary, Floating.test, Floating.sum, Floating.mean,
  Floating.ofWhole
-/
import ClauseEngine.Value.Access
import ClauseEngine.Double.Rounding

namespace ClauseEngine

namespace Floating

def binary (f : Double → Double → Double) (a b : Value) : Result Value := do
  let x ← a.asFloat
  let y ← b.asFloat
  return .float (f x y)

def unary (f : Double → Double) (a : Value) : Result Value := do
  return .float (f (← a.asFloat))

def test (f : Double → Double → Bool) (a b : Value) : Result Value := do
  let x ← a.asFloat
  let y ← b.asFloat
  return .bool (f x y)

/-- Add the items to a running total, from the left. -/
def sumFrom (total : Double) : List Value → Result Double
  | [] => .ok total
  | item :: rest => do
      let x ← item.asFloat
      sumFrom (total.add x) rest

def sum (a : Value) : Result Value := do
  return .float (← sumFrom Double.zero (← a.asSeq))

/-- The arithmetic mean, which is zero for no items. -/
def mean (a : Value) : Result Value := do
  let items ← a.asSeq
  if items.isEmpty then return .float Double.zero
  let total ← sumFrom Double.zero items
  return .float (total.div (Double.ofInt items.length))

/-- The double nearest to a whole number. -/
def ofWhole (a : Value) : Result Value := do
  return .float (Double.ofInt (← a.asNat).toInt)

end Floating

end ClauseEngine
