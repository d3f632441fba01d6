/-
Module: ClauseEngine.Value.Order
Purpose: The order of values. Sequences are bags to it: every sequence inside a value is first put
  in ascending order, from the inside out, and the arranged values are then compared part by part.
Main exports: Value.orderArranged, Value.arrange, Value.order, Value.equal, Value.sort
-/
import ClauseEngine.Value.Basic

namespace ClauseEngine

namespace Value

mutual

/-- Compare two values whose sequences are in ascending order already. Values of different kinds
    compare by kind, date-times by instant, branded values by brand and then by fields. -/
def orderArranged : Value → Value → Ordering
  | .unit, other => match other with
      | .unit => .eq
      | _ => compare Kind.unit.rank other.kind.rank
  | .bool a, other => match other with
      | .bool b => compare a b
      | _ => compare Kind.bool.rank other.kind.rank
  | .nat a, other => match other with
      | .nat b => compare a.toInt b.toInt
      | _ => compare Kind.nat.rank other.kind.rank
  | .float a, other => match other with
      | .float b => a.order b
      | _ => compare Kind.float.rank other.kind.rank
  | .str a, other => match other with
      | .str b => compare a b
      | _ => compare Kind.str.rank other.kind.rank
  | .dateTime a, other => match other with
      | .dateTime b => a.order b
      | _ => compare Kind.dateTime.rank other.kind.rank
  | .seq a, other => match other with
      | .seq b => orderItems a b
      | _ => compare Kind.seq.rank other.kind.rank
  | .record a, other => match other with
      | .record b => orderFields a b
      | _ => compare Kind.record.rank other.kind.rank
  | .left a, other => match other with
      | .left b => orderArranged a b
      | _ => compare Kind.left.rank other.kind.rank
  | .right a, other => match other with
      | .right b => orderArranged a b
      | _ => compare Kind.right.rank other.kind.rank
  | .branded x a, other => match other with
      | .branded y b => (compare x y).then (orderFields a b)
      | _ => compare Kind.branded.rank other.kind.rank

/-- Compare two lists item by item; a list comes before its extensions. -/
def orderItems : List Value → List Value → Ordering
  | [], [] => .eq
  | [], _ :: _ => .lt
  | _ :: _, [] => .gt
  | a :: as, b :: bs => (orderArranged a b).then (orderItems as bs)

/-- Compare two collections of fields by the first name in which they differ: the one that has a
    field comes before the one that lacks it, and fields of the same name compare by value. -/
def orderFields : List (String × Value) → List (String × Value) → Ordering
  | [], [] => .eq
  | [], _ :: _ => .gt
  | _ :: _, [] => .lt
  | (x, a) :: as, (y, b) :: bs =>
      (compare x y).then ((orderArranged a b).then (orderFields as bs))

end

mutual

/-- Put every sequence inside a value in ascending order, from the inside out. -/
def arrange : Value → Value
  | .seq items =>
      .seq ((arrangeItems items).mergeSort fun a b => (orderArranged a b).isLE)
  | .record fields => .record (arrangeFields fields)
  | .left payload => .left payload.arrange
  | .right payload => .right payload.arrange
  | .branded brand fields => .branded brand (arrangeFields fields)
  | v => v

/-- Arrange each item. -/
def arrangeItems : List Value → List Value
  | [] => []
  | item :: rest => item.arrange :: arrangeItems rest

/-- Arrange the value of each field. -/
def arrangeFields : List (String × Value) → List (String × Value)
  | [] => []
  | (name, value) :: rest => (name, value.arrange) :: arrangeFields rest

end

/-- The order of values. -/
def order (a b : Value) : Ordering := orderArranged a.arrange b.arrange

/-- Structural equality: sequences as bags, date-times as instants, one zero. -/
def equal (a b : Value) : Bool := (order a b).isEq

/-- The values in ascending order. Values that compare equal keep their places. -/
def sort (items : List Value) : List Value := items.mergeSort fun a b => (order a b).isLE

end Value

end ClauseEngine
