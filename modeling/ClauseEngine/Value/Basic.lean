/-
Module: ClauseEngine.Value.Basic
Purpose: The runtime values of the contract language: scalars, sequences, records, the two sides of
  a sum, and branded records. Fields ascend by name.
Main exports: Kind, Kind.name, Value, Value.kind, Value.fields?, Value.brand?
-/
import ClauseEngine.DateTime.Basic
import ClauseEngine.Double.Basic
import ClauseEngine.Fields
import ClauseEngine.Integer

namespace ClauseEngine

/-- The kinds of values, in the order in which values of different kinds are compared. -/
inductive Kind where
  | unit
  | bool
  | nat
  | float
  | str
  | dateTime
  | seq
  | record
  | left
  | right
  | branded
deriving DecidableEq, Repr

namespace Kind

/-- The name of a kind in messages. -/
def name : Kind → String
  | .unit => "Unit"
  | .bool => "Bool"
  | .nat => "Nat"
  | .float => "Float"
  | .str => "Str"
  | .dateTime => "DateTime"
  | .seq => "Sequence"
  | .record => "Record"
  | .left => "Left"
  | .right => "Right"
  | .branded => "Branded"

/-- The place of a kind in the order of kinds. -/
def rank : Kind → Nat
  | .unit => 0
  | .bool => 1
  | .nat => 2
  | .float => 3
  | .str => 4
  | .dateTime => 5
  | .seq => 6
  | .record => 7
  | .left => 8
  | .right => 9
  | .branded => 10

end Kind

/-- A runtime value. -/
inductive Value where
  | unit
  | bool (value : Bool)
  | nat (value : Int64)
  | float (value : Double)
  | str (value : String)
  | dateTime (value : DateTime)
  | seq (items : List Value)
  | record (fields : List (String × Value))
  | left (payload : Value)
  | right (payload : Value)
  | branded (brand : String) (fields : List (String × Value))
deriving Inhabited

namespace Value

/-- The kind of a value. -/
def kind : Value → Kind
  | .unit => .unit
  | .bool _ => .bool
  | .nat _ => .nat
  | .float _ => .float
  | .str _ => .str
  | .dateTime _ => .dateTime
  | .seq _ => .seq
  | .record _ => .record
  | .left _ => .left
  | .right _ => .right
  | .branded _ _ => .branded

/-- The fields of a record, branded or not. -/
def fields? : Value → Option (List (String × Value))
  | .record fields => some fields
  | .branded _ fields => some fields
  | _ => none

/-- The brand of a branded value. -/
def brand? : Value → Option String
  | .branded brand _ => some brand
  | _ => none

mutual

/-- Every collection of fields inside a value ascends by name. -/
def Ordered : Value → Prop
  | .seq items => OrderedItems items
  | .record fields => Fields.Ordered fields ∧ OrderedFields fields
  | .left payload => payload.Ordered
  | .right payload => payload.Ordered
  | .branded _ fields => Fields.Ordered fields ∧ OrderedFields fields
  | _ => True

/-- Every value of a list has its fields in order. -/
def OrderedItems : List Value → Prop
  | [] => True
  | item :: rest => item.Ordered ∧ OrderedItems rest

/-- The value of every field has its own fields in order. -/
def OrderedFields : List (String × Value) → Prop
  | [] => True
  | (_, value) :: rest => value.Ordered ∧ OrderedFields rest

end

end Value

end ClauseEngine
