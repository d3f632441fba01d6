/-
Module: ClauseEngine.Calendar
Purpose: The proleptic Gregorian calendar. A date and the number of its day determine each other;
  day zero is the first of January of the year 1.
Main exports: Calendar.isLeap, Calendar.daysInMonth, Calendar.daysBeforeYear, Date, Date.isValid,
  Date.dayNumber, Date.ofDayNumber, Date.endsMonth
-/
namespace ClauseEngine

namespace Calendar

/-- Every fourth year is a leap year, except the centuries that 400 does not divide. -/
def isLeap (year : Int) : Bool := year % 4 = 0 && (year % 100 != 0 || year % 400 = 0)

/-- The length of a month; the months are numbered from 1. -/
def daysInMonth (year : Int) : Nat → Nat
  | 2 => if isLeap year then 29 else 28
  | 4 => 30
  | 6 => 30
  | 9 => 30
  | 11 => 30
  | _ => 31

/-- The number of days from day zero to the first day of a year. -/
def daysBeforeYear (year : Int) : Int :=
  let past := year - 1
  365 * past + past / 4 - past / 100 + past / 400

/-- The number of days in the first months of a year. -/
def daysInMonths (year : Int) : Nat → Nat
  | 0 => 0
  | month + 1 => daysInMonths year month + daysInMonth year (month + 1)

/-- The year that holds a day. The mean length of a year leads to it up to one. -/
def yearOfDay (day : Int) : Int :=
  let guess := 400 * day / 146097 + 1
  if day < daysBeforeYear guess then guess - 1
  else if daysBeforeYear (guess + 1) ≤ day then guess + 1
  else guess

/-- The month that holds a day of a year, the days being counted from zero. -/
def monthOfDay (year : Int) (dayOfYear : Nat) : Nat :=
  ((List.range 12).findSome? fun month =>
    if dayOfYear < daysInMonths year (month + 1) then some (month + 1) else none).getD 12

end Calendar

/-- A calendar date. Months and days are numbered from 1. -/
structure Date where
  year : Int
  month : Nat
  day : Nat
deriving DecidableEq, Repr

namespace Date

open Calendar

/-- The month exists and has the day. -/
def isValid (d : Date) : Bool :=
  1 ≤ d.month && d.month ≤ 12 && 1 ≤ d.day && d.day ≤ daysInMonth d.year d.month

/-- The number of the day. -/
def dayNumber (d : Date) : Int :=
  daysBeforeYear d.year + daysInMonths d.year (d.month - 1) + (d.day - 1 : Int)

/-- The date of a day. -/
def ofDayNumber (day : Int) : Date :=
  let year := yearOfDay day
  let dayOfYear := (day - daysBeforeYear year).toNat
  let month := monthOfDay year dayOfYear
  ⟨year, month, dayOfYear - daysInMonths year (month - 1) + 1⟩

/-- The date is the last of its month. -/
def endsMonth (d : Date) : Bool := d.day = daysInMonth d.year d.month

end Date

end ClauseEngine
