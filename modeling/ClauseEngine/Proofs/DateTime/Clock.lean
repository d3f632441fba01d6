/-
Module: ClauseEngine.Proofs.DateTime.Clock
Purpose: What a wall clock shows. A clock in nanoseconds and the date and time of day that it shows
  determine each other, over all years; the range of the clock is that of the years -9999 to 9999.
Main exports: Clock.Reading, Clock.reading, Clock.readingEquiv, Clock.Reading.shift,
  Clock.inRange_iff_year, DateTime.reading, DateTime.le_year, DateTime.year_le
-/
import ClauseEngine.DateTime.Basic
import ClauseEngine.Proofs.Calendar
import Mathlib.Logic.Equiv.Defs

namespace ClauseEngine

namespace Clock

/-- A date that exists and a time of that day. -/
@[ext]
structure Reading where
  date : Date
  nanoOfDay : Nat
  date_isValid : date.isValid = true
  nanoOfDay_lt : (nanoOfDay : Int) < nanosPerDay
deriving DecidableEq

theorem nanosPerDay_pos : 0 < nanosPerDay := by decide

theorem toNat_emod_nanosPerDay (clock : Int) :
    ((clock % nanosPerDay).toNat : Int) = clock % nanosPerDay :=
  Int.toNat_of_nonneg (Int.emod_nonneg clock (Int.ne_of_gt nanosPerDay_pos))

/-- The clock that shows a date and a time. -/
def Reading.clock (r : Reading) : Int := r.date.dayNumber * nanosPerDay + r.nanoOfDay

/-- What a clock shows. -/
def reading (clock : Int) : Reading where
  date := Date.ofDayNumber (clock / nanosPerDay)
  nanoOfDay := (clock % nanosPerDay).toNat
  date_isValid := Date.isValid_ofDayNumber _
  nanoOfDay_lt := by
    rw [toNat_emod_nanosPerDay]
    exact Int.emod_lt_of_pos clock nanosPerDay_pos

/-- The reading of a clock gives the clock back. -/
theorem clock_reading (clock : Int) : (reading clock).clock = clock := by
  simp only [Reading.clock, reading, Date.dayNumber_ofDayNumber, toNat_emod_nanosPerDay]
  exact Int.ediv_mul_add_emod clock nanosPerDay

/-- A reading is recovered from the clock that shows it. -/
theorem reading_clock (r : Reading) : reading r.clock = r := by
  have hnano : (0 : Int) ≤ r.nanoOfDay := Int.natCast_nonneg _
  have hday : r.clock / nanosPerDay = r.date.dayNumber := by
    rw [Reading.clock, Int.add_comm, Int.add_mul_ediv_right _ _ (Int.ne_of_gt nanosPerDay_pos),
      Int.ediv_eq_zero_of_lt hnano r.nanoOfDay_lt, Int.zero_add]
  have htime : r.clock % nanosPerDay = r.nanoOfDay := by
    rw [Reading.clock, Int.add_comm, Int.add_mul_emod_self_right,
      Int.emod_eq_of_lt hnano r.nanoOfDay_lt]
  ext1
  · show Date.ofDayNumber (r.clock / nanosPerDay) = r.date
    rw [hday, Date.ofDayNumber_dayNumber r.date_isValid]
  · show (r.clock % nanosPerDay).toNat = r.nanoOfDay
    rw [htime, Int.toNat_natCast]

/-- A clock and what it shows determine each other. -/
def readingEquiv : Int ≃ Reading where
  toFun := reading
  invFun := Reading.clock
  left_inv := clock_reading
  right_inv := reading_clock

/-- What a clock shows some seconds later. -/
def Reading.shift (r : Reading) (seconds : Int) : Reading :=
  readingEquiv (readingEquiv.symm r + seconds * nanosPerSecond)

/-- Shifting what a clock shows is showing the shifted clock. -/
theorem shift_reading (clock seconds : Int) :
    (reading clock).shift seconds = reading (clock + seconds * nanosPerSecond) :=
  congrArg (fun clock => reading (clock + seconds * nanosPerSecond)) (clock_reading clock)

/-- A clock is in range exactly if it shows one of the years covered. -/
theorem inRange_iff_year (clock : Int) :
    InRange clock ↔ -9999 ≤ (reading clock).date.year ∧ (reading clock).date.year ≤ 9999 := by
  have hfirst : clock < first ↔ (reading clock).date.year < -9999 := by
    rw [first, ← Int.ediv_lt_iff_lt_mul nanosPerDay_pos, ← Calendar.yearOfDay_lt_iff]
    rfl
  have hlast : clock < last + 1 ↔ (reading clock).date.year < 10000 := by
    rw [last, Int.sub_add_cancel, ← Int.ediv_lt_iff_lt_mul nanosPerDay_pos,
      ← Calendar.yearOfDay_lt_iff]
    rfl
  unfold InRange
  omega

end Clock

namespace DateTime

/-- The local date and time of day. -/
def reading (t : DateTime) : Clock.Reading := Clock.reading t.clock

/-- No date-time lies before the year -9999. -/
theorem le_year (t : DateTime) : -9999 ≤ t.date.year :=
  ((Clock.inRange_iff_year t.clock).1 t.clock_inRange).1

/-- No date-time lies beyond the year 9999. -/
theorem year_le (t : DateTime) : t.date.year ≤ 9999 :=
  ((Clock.inRange_iff_year t.clock).1 t.clock_inRange).2

end DateTime

end ClauseEngine
