/-
Module: ClauseEngine.Primitive.Time
Purpose: Operators on date-times. Comparisons and differences go by the instant; shifts move the
  local clock and keep the offset.
Main exports: Time.parse, Time.format, Time.difference, Time.add, Time.subtract, Time.test,
  Time.earlier, Time.later, Time.year, Time.month, Time.day
-/
import ClauseEngine.Duration
import ClauseEngine.Value.Wire

namespace ClauseEngine

namespace Time

def parse (a : Value) : Result Value := do
  return .dateTime (← Value.readDateTime (← a.asStr))

def format (a : Value) : Result Value := do
  return .str (← a.asDateTime).write

/-- The whole seconds from the second date-time to the first, as a duration. -/
def difference (a b : Value) : Result Value := do
  let x ← a.asDateTime
  let y ← b.asDateTime
  return Duration.toValue ⟨Int64.ofInt (x.secondsSince y), .seconds⟩

/-- Move a date-time by the seconds of a duration, forwards or backwards. -/
def shift (operator : String) (direction : Int) (a d : Value) : Result Value := do
  let seconds ← Duration.secondsOf d
  let t ← a.asDateTime
  match t.shift? (direction * seconds.toInt) with
  | some moved => return .dateTime moved
  | none => throw (.overflow (.shift operator seconds))

def add : Value → Value → Result Value := shift "date_time_add" 1

def subtract : Value → Value → Result Value := shift "date_time_subtract" (-1)

/-- A test of the order of two instants. -/
def test (accepts : Ordering → Bool) (a b : Value) : Result Value := do
  let x ← a.asDateTime
  let y ← b.asDateTime
  return .bool (accepts (x.order y))

/-- The earlier of two date-times; the first of two equal ones. -/
def earlier (a b : Value) : Result Value := do
  let x ← a.asDateTime
  let y ← b.asDateTime
  return .dateTime (if (x.order y).isLE then x else y)

/-- The later of two date-times; the second of two equal ones. -/
def later (a b : Value) : Result Value := do
  let x ← a.asDateTime
  let y ← b.asDateTime
  return .dateTime (if (x.order y).isLE then y else x)

def year (a : Value) : Result Value := do
  return .nat (Int64.ofInt (← a.asDateTime).date.year)

def month (a : Value) : Result Value := do
  return .nat (Int64.ofNat (← a.asDateTime).date.month)

def day (a : Value) : Result Value := do
  return .nat (Int64.ofNat (← a.asDateTime).date.day)

end Time

end ClauseEngine
