/-
Module: ClauseEngine.Primitive.Sequence
Purpose: Operators on sequences. Difference, intersection and greatest union treat a sequence as a
  bag: they walk two sorted copies side by side and use up one occurrence for each match.
Main exports: Bag.minus, Bag.min, Bag.max, Sequence.firstOnly, Sequence.Criterion,
  Sequence.sort, and the other operators of the language
-/
import ClauseEngine.Value.Access
import ClauseEngine.Value.Order

namespace ClauseEngine

namespace Bag

open Value (order)

/-- Difference of two ascending lists: each value of the second removes one equal value. -/
def minus : List Value → List Value → List Value
  | [], _ => []
  | x :: xs, [] => x :: xs
  | x :: xs, y :: ys =>
      match order x y with
      | .lt => x :: minus xs (y :: ys)
      | .eq => minus xs ys
      | .gt => minus (x :: xs) ys
termination_by xs ys => xs.length + ys.length

/-- Intersection of two ascending lists, made of values of the first. -/
def min : List Value → List Value → List Value
  | [], _ => []
  | _ :: _, [] => []
  | x :: xs, y :: ys =>
      match order x y with
      | .lt => min xs (y :: ys)
      | .eq => x :: min xs ys
      | .gt => min (x :: xs) ys
termination_by xs ys => xs.length + ys.length

/-- Union of two ascending lists by the greater multiplicity. Of two equal values the one of the
    first list is kept. -/
def max : List Value → List Value → List Value
  | [], ys => ys
  | x :: xs, [] => x :: xs
  | x :: xs, y :: ys =>
      match order x y with
      | .lt => x :: max xs (y :: ys)
      | .eq => x :: max xs ys
      | .gt => y :: max (x :: xs) ys
termination_by xs ys => xs.length + ys.length

end Bag

namespace Sequence

/-- Concatenation: duplicates are kept. -/
def union (a b : Value) : Result Value := do
  let xs ← a.asSeq
  let ys ← b.asSeq
  return .seq (xs ++ ys)

/-- A bag operator on the sorted items of two sequences. -/
def bagOperator (f : List Value → List Value → List Value) (a b : Value) : Result Value := do
  let xs ← a.asSeq
  let ys ← b.asSeq
  return .seq (f (Value.sort xs) (Value.sort ys))

def minus : Value → Value → Result Value := bagOperator Bag.minus

def min : Value → Value → Result Value := bagOperator Bag.min

def max : Value → Value → Result Value := bagOperator Bag.max

/-- The items that equal none of those kept before. -/
def firstOnly (kept : List Value) : List Value → List Value
  | [] => []
  | x :: rest =>
      if kept.any (Value.equal · x) then firstOnly kept rest
      else x :: firstOnly (x :: kept) rest

/-- The sequence without structural duplicates. The first of several equal items stays. -/
def distinct (a : Value) : Result Value := do
  return .seq (firstOnly [] (← a.asSeq))

/-- The direction of a sort criterion. -/
inductive Direction where
  | ascending
  | descending
deriving DecidableEq, Repr

/-- A comparison as the direction has it. -/
def Direction.orient : Direction → Ordering → Ordering
  | .ascending, o => o
  | .descending, o => o.swap

/-- A field to sort by and its direction. -/
structure Criterion where
  field : String
  direction : Direction
deriving DecidableEq, Repr

namespace Criterion

/-- A criterion is a record with a field name and the order of that field. -/
def read (v : Value) : Result Criterion := do
  let field ← (← v.dot "field").asStr
  let name ← (← v.dot "order").asStr
  if name = "asc" then return ⟨field, .ascending⟩
  else if name = "desc" then return ⟨field, .descending⟩
  else throw (.mismatch (.sortOrder name))

/-- The value that an item is sorted by. -/
def key (c : Criterion) (item : Value) : Result Value :=
  match item.fields? with
  | some fields => Value.fieldOf fields c.field
  | none => .error (.notRecord (.sorting item.kind c.field))

/-- Compare two lists of keys by the first criterion that tells them apart. -/
def orderKeys : List Criterion → List Value → List Value → Ordering
  | c :: cs, a :: as, b :: bs =>
      (c.direction.orient (Value.order a b)).then (orderKeys cs as bs)
  | _, _, _ => .eq

end Criterion

/-- Stable sort of records by some criteria, the first of which counts most. All keys are read
    before anything is compared. -/
def sort (criteria a : Value) : Result Value := do
  let criteria ← (← criteria.asSeq).mapM Criterion.read
  let items ← a.asSeq
  let keyed ← items.mapM fun item => do
    return ((← criteria.mapM fun c => c.key item), item)
  let sorted := keyed.mergeSort fun x y => (Criterion.orderKeys criteria x.1 y.1).isLE
  return .seq (sorted.map (·.2))

/-- The items of the items. -/
def flatten (a : Value) : Result Value := do
  let items ← a.asSeq
  return .seq (← items.mapM Value.asSeq).flatten

/-- An optional value as a sum: the value on the left, or unit on the right. -/
def optional : Option Value → Value
  | some v => .left v
  | none => .right .unit

/-- The item at a position counted from zero, if there is one. -/
def nth (a index : Value) : Result Value := do
  let items ← a.asSeq
  let i ← index.asNat
  return optional (if i.toInt < 0 then none else items[i.toInt.toNat]?)

def count (a : Value) : Result Value := do
  return .nat (Int64.ofNat (← a.asSeq).length)

def contains (x a : Value) : Result Value := do
  return .bool ((← a.asSeq).any (Value.equal · x))

/-- The only item, if there is exactly one. -/
def singleton (a : Value) : Result Value := do
  match ← a.asSeq with
  | [only] => return optional (some only)
  | _ => return optional none

end Sequence

end ClauseEngine
