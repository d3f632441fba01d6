/-
Module: ClauseEngine.Duration
Purpose: Temporal units and durations. A unit travels as a nested sum whose depth is its ordinal; a
  duration is a branded record of an amount and a unit. Amounts are exact: a conversion to a finer
  unit is a checked product, one to a coarser unit rounds down.
Main exports: TemporalUnit, TemporalUnit.length, TemporalUnit.toValue, TemporalUnit.ofValue,
  Duration, Duration.convertAmount, Duration.toValue, Duration.ofValue, Duration.secondsOf, and the
  operators on durations
-/
import ClauseEngine.Value.Access

namespace ClauseEngine

/-- The units of time, from the finest to the coarsest. -/
inductive TemporalUnit where
  | seconds
  | minutes
  | hours
  | days
  | weeks
deriving DecidableEq, Repr

namespace TemporalUnit

def all : List TemporalUnit := [.seconds, .minutes, .hours, .days, .weeks]

def name : TemporalUnit → String
  | .seconds => "seconds"
  | .minutes => "minutes"
  | .hours => "hours"
  | .days => "days"
  | .weeks => "weeks"

/-- The length of a unit in seconds. -/
def length : TemporalUnit → Nat
  | .seconds => 1
  | .minutes => 60
  | .hours => 3600
  | .days => 86400
  | .weeks => 604800

def ordinal : TemporalUnit → Nat
  | .seconds => 0
  | .minutes => 1
  | .hours => 2
  | .days => 3
  | .weeks => 4

/-- The finer of two units. -/
def finer (u v : TemporalUnit) : TemporalUnit := if v.ordinal < u.ordinal then v else u

def ofName (name : String) : Result TemporalUnit :=
  match all.find? fun unit => unit.name == name with
  | some unit => .ok unit
  | none => .error (.badUnit (.unknown name))

/-- A value inside so many right sides. -/
def nest : Nat → Value → Value
  | 0, v => v
  | depth + 1, v => .right (nest depth v)

/-- The nested sum of a unit: its name on the left, inside as many right sides as its ordinal. -/
def toValue (u : TemporalUnit) : Value := nest u.ordinal (.left (.str u.name))

/-- The unit of an ordinal. A name found there has to be its own. -/
def ofTerminal (ordinal : Nat) (terminal : Value) : Result TemporalUnit :=
  match all[ordinal]? with
  | none => .error (.badUnit (.outOfRange ordinal))
  | some unit =>
      match terminal with
      | .str name => if name = unit.name then .ok unit else .error (.badUnit (.misplaced name unit.name))
      | _ => .ok unit

/-- Count the right sides down to the terminal. At the depth of the last unit, a value that is no
    sum is the terminal itself. -/
def ofNested (depth : Nat) : Value → Result TemporalUnit
  | .right payload => ofNested (depth + 1) payload
  | .left payload => ofTerminal depth payload
  | other =>
      if depth = 4 then ofTerminal depth other else .error (.badUnit (.notNested other.kind))

/-- The unit that a value denotes: its name alone, or the nested sum. -/
def ofValue (v : Value) : Result TemporalUnit :=
  match v with
  | .str name => ofName name
  | _ => ofNested 0 v

end TemporalUnit

/-- An amount of a temporal unit. -/
structure Duration where
  amount : Int64
  unit : TemporalUnit
deriving DecidableEq, Repr

namespace Duration

/-- The brand of durations. -/
def brand : String := "org.accordproject.time.Duration"

/-- An amount of one unit in another. To a finer unit the result is exact and may overflow; to a
    coarser one it is rounded down. -/
def convertAmount (amount : Int64) (source target : TemporalUnit) : Result Int64 :=
  let exact :=
    if target.length ≤ source.length then amount.toInt * (source.length / target.length : Nat)
    else amount.toInt / (target.length / source.length : Nat)
  match Integer.ofInt? exact with
  | some n => .ok n
  | none => .error (.overflow (.conversion amount source.name target.name))

/-- The branded record of a duration. -/
def toValue (d : Duration) : Value :=
  .branded brand [("amount", .nat d.amount), ("unit", d.unit.toValue)]

/-- The duration of a record, branded in whatever way or not at all. -/
def ofValue (v : Value) : Result Duration :=
  match v.fields? with
  | some fields => do
      let amount ← (← Value.fieldOf fields "amount").asNat
      let unit ← TemporalUnit.ofValue (← Value.fieldOf fields "unit")
      return ⟨amount, unit⟩
  | none => v.unexpected "Duration"

/-- The amount in another unit. -/
def amountIn (d : Duration) (target : TemporalUnit) : Result Int64 :=
  convertAmount d.amount d.unit target

/-- The duration of a value in seconds. -/
def secondsOf (v : Value) : Result Int64 := do
  (← ofValue v).amountIn .seconds

/-- A duration of whole seconds. -/
def ofSeconds (a : Value) : Result Value := do
  return toValue ⟨← a.asNat, .seconds⟩

def amountOf (a : Value) : Result Value := do
  return .nat (← ofValue a).amount

def unitOf (a : Value) : Result Value := do
  return (← ofValue a).unit.toValue

/-- The same length of time in another unit. -/
def convert (unitValue a : Value) : Result Value := do
  let target ← TemporalUnit.ofValue unitValue
  let d ← ofValue a
  return toValue ⟨← d.amountIn target, target⟩

/-- Two durations by their amounts in the finer of their units. -/
structure Aligned where
  first : Int64
  second : Int64
  unit : TemporalUnit

/-- Read and align two durations. -/
def align (a b : Value) : Result Aligned := do
  let x ← ofValue a
  let y ← ofValue b
  let unit := x.unit.finer y.unit
  let first ← x.amountIn unit
  let second ← y.amountIn unit
  return ⟨first, second, unit⟩

/-- An exact result in the common unit of two durations. -/
def combine (operator : String) (f : Int → Int → Int) (a b : Value) : Result Value := do
  let aligned ← align a b
  match Integer.ofInt? (f aligned.first.toInt aligned.second.toInt) with
  | some n => return toValue ⟨n, aligned.unit⟩
  | none => throw (.overflow (.total operator))

def add : Value → Value → Result Value := combine "duration_add" (· + ·)

def subtract : Value → Value → Result Value := combine "duration_subtract" (· - ·)

/-- The sign of the comparison of two durations. -/
def order (a b : Value) : Result Value := do
  let aligned ← align a b
  return .nat (Integer.signOf (compare aligned.first.toInt aligned.second.toInt))

end Duration

end ClauseEngine
