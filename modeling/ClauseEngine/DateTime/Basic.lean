/-
Module: ClauseEngine.DateTime.Basic
Purpose: Date-times: a local wall clock in nanoseconds together with the offset of its zone. The
  clock covers the years -9999 to 9999. Two date-times are compared by the instant they denote,
  whatever their offsets.
Main exports: DateTime, DateTime.ofClock?, DateTime.instant, DateTime.date, DateTime.shift?,
  DateTime.secondsSince, DateTime.order
-/
import ClauseEngine.Calendar

namespace ClauseEngine

namespace Clock

def nanosPerSecond : Int := 1000000000

def secondsPerDay : Int := 86400

def nanosPerDay : Int := secondsPerDay * nanosPerSecond

/-- The first nanosecond of the year -9999. -/
def first : Int := Calendar.daysBeforeYear (-9999) * nanosPerDay

/-- The last nanosecond of the year 9999. -/
def last : Int := Calendar.daysBeforeYear 10000 * nanosPerDay - 1

/-- A reading of the wall clock in the years covered. -/
def InRange (clock : Int) : Prop := first ≤ clock ∧ clock ≤ last

instance (clock : Int) : Decidable (InRange clock) := by
  unfold InRange
  infer_instance

/-- The offset of a zone in minutes is less than a day. These are the offsets that a text can give,
    and no operator makes another: a text has no seconds in its offset and no more than 23 hours. -/
def OffsetInRange (minutes : Int) : Prop := -1440 < minutes ∧ minutes < 1440

instance (minutes : Int) : Decidable (OffsetInRange minutes) := by
  unfold OffsetInRange
  infer_instance

end Clock

/-- A local wall clock, in nanoseconds from the start of the year 1, and the minutes by which it is
    ahead of universal time. -/
structure DateTime where
  clock : Int
  offset : Int
  clock_inRange : Clock.InRange clock
  offset_inRange : Clock.OffsetInRange offset
deriving DecidableEq, Repr

namespace DateTime

open Clock

/-- The date-time with a given clock and offset, if both are in range. -/
def ofClock? (clock offset : Int) : Option DateTime :=
  if h : InRange clock ∧ OffsetInRange offset then some ⟨clock, offset, h.1, h.2⟩ else none

/-- The moment denoted, as the reading of a clock at universal time. -/
def instant (t : DateTime) : Int := t.clock - t.offset * 60 * nanosPerSecond

/-- Comparison by instant. -/
def order (a b : DateTime) : Ordering := compare a.instant b.instant

/-- The local date. -/
def date (t : DateTime) : Date := Date.ofDayNumber (t.clock / nanosPerDay)

/-- The local time of day in nanoseconds. -/
def nanoOfDay (t : DateTime) : Nat := (t.clock % nanosPerDay).toNat

def nano (t : DateTime) : Nat := t.nanoOfDay % 1000000000

def second (t : DateTime) : Nat := t.nanoOfDay / 1000000000 % 60

def minute (t : DateTime) : Nat := t.nanoOfDay / 60000000000 % 60

def hour (t : DateTime) : Nat := t.nanoOfDay / 3600000000000

/-- Move the local clock by some seconds and keep the offset. -/
def shift? (t : DateTime) (seconds : Int) : Option DateTime :=
  ofClock? (t.clock + seconds * nanosPerSecond) t.offset

/-- The whole seconds from `b` to `a`, rounded towards zero. -/
def secondsSince (a b : DateTime) : Int := (a.instant - b.instant).tdiv nanosPerSecond

end DateTime

end ClauseEngine
