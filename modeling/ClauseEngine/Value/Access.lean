/-
Module: ClauseEngine.Value.Access
Purpose: Reading a value as a given kind, with the error that names the kind found instead.
Main exports: Result, Value.asBool, Value.asNat, Value.asFloat, Value.asStr, Value.asDateTime,
  Value.asSeq, Value.asRecord, Value.dot
-/
import ClauseEngine.Error

namespace ClauseEngine

/-- The outcome of a step of an evaluation. -/
abbrev Result (α : Type) : Type := Except EvalError α

namespace Value

/-- The error of a value that is not of the kind needed. -/
def unexpected {α : Type} (what : String) (v : Value) : Result α :=
  .error (.mismatch (.expected what v.kind))

def asBool : Value → Result Bool
  | .bool b => .ok b
  | v => v.unexpected "Bool"

def asNat : Value → Result Int64
  | .nat n => .ok n
  | v => v.unexpected "Nat"

def asFloat : Value → Result Double
  | .float x => .ok x
  | v => v.unexpected "Float"

def asStr : Value → Result String
  | .str s => .ok s
  | v => v.unexpected "Str"

def asDateTime : Value → Result DateTime
  | .dateTime t => .ok t
  | v => v.unexpected "DateTime"

def asSeq : Value → Result (List Value)
  | .seq items => .ok items
  | v => v.unexpected "Sequence"

/-- The fields of an unbranded record. -/
def asRecord : Value → Result (List (String × Value))
  | .record fields => .ok fields
  | v => .error (.notRecord (.expected v.kind))

/-- The value of a field among others. -/
def fieldOf (fields : List (String × Value)) (name : String) : Result Value :=
  match fields.lookup name with
  | some v => .ok v
  | none => .error (.missingField name)

/-- The field of an unbranded record. -/
def dot (v : Value) (name : String) : Result Value := do
  fieldOf (← v.asRecord) name

end Value

end ClauseEngine
