/-
Module: ClauseEngine.Proofs.Duration
Purpose: Conversions between units, and durations of whole seconds. An amount is converted through its
  number of seconds, rounded down. Whole seconds are converted to every unit, they are compared with
  a duration of any unit by its length in seconds, and the seconds between any two date-times are
  one of them.
Main exports: Integer.Fits.ediv, Duration.ofValue_toValue, Duration.convertAmount_of_fits,
  Duration.convertAmount_of_not_fits, Duration.convertAmount_of_seconds,
  Duration.convertAmount_to_seconds, Duration.convert_of_seconds, Duration.order_of_seconds,
  DateTime.fits_secondsSince
-/
import ClauseEngine.Duration
import ClauseEngine.Proofs.Result

namespace ClauseEngine

namespace Integer

/-- A whole part of a number that fits does. -/
theorem Fits.ediv {z ratio : Int} (h : Fits z) (hpos : 0 < ratio) : Fits (z / ratio) := by
  obtain ⟨hlow, hhigh⟩ := h
  rcases Int.le_total 0 z with hz | hz
  · have hle : z / ratio ≤ z := Int.ediv_le_self ratio hz
    have hnonneg : 0 ≤ z / ratio := Int.ediv_nonneg hz (Int.le_of_lt hpos)
    exact ⟨Int.le_trans (by decide) hnonneg, Int.le_trans hle hhigh⟩
  · have hmul : z * ratio ≤ z * 1 := Int.mul_le_mul_of_nonpos_left hz hpos
    rw [Int.mul_one] at hmul
    have hle : z ≤ z / ratio := Int.le_ediv_of_mul_le hpos hmul
    have hnonpos : z / ratio ≤ 0 := Int.ediv_nonpos_of_nonpos_of_neg hz hpos
    exact ⟨Int.le_trans hlow hle, Int.le_trans hnonpos (by decide)⟩

end Integer

open Integer

namespace TemporalUnit

/-- A unit is read back from the value it is written as. -/
theorem ofValue_toValue (u : TemporalUnit) : ofValue u.toValue = .ok u := by
  cases u <;> rfl

theorem length_pos (u : TemporalUnit) : 0 < (u.length : Int) := by
  cases u <;> decide

/-- No unit is finer than the second. -/
theorem finer_seconds (u : TemporalUnit) : seconds.finer u = seconds :=
  if_neg (Nat.not_lt_zero _)

end TemporalUnit

namespace Duration

theorem ofValue_toValue (d : Duration) : ofValue d.toValue = .ok d := by
  show (do
    let unit ← TemporalUnit.ofValue d.unit.toValue
    return (⟨d.amount, unit⟩ : Duration) : Result Duration) = _
  rw [d.unit.ofValue_toValue]
  rfl

/-- The exact amount of a conversion in either direction: the ratio of two units is whole, and a
    number of seconds is rounded down to whole units. -/
theorem exactAmount_eq (n : Int) (source target : TemporalUnit) :
    (if target.length ≤ source.length then n * (source.length / target.length : Nat)
      else n / (target.length / source.length : Nat)) = n * source.length / target.length := by
  cases source <;> cases target <;> simp [TemporalUnit.length] <;> omega

/-- An amount is converted exactly, up to rounding down, as long as the result fits. -/
theorem convertAmount_of_fits {n : Int64} {source target : TemporalUnit}
    (h : Fits (n.toInt * source.length / target.length)) :
    convertAmount n source target =
      .ok (Int64.ofInt (n.toInt * source.length / target.length)) := by
  rw [convertAmount, exactAmount_eq, ofInt?_of_fits h]

/-- A conversion whose exact result does not fit is an overflow. -/
theorem convertAmount_of_not_fits {n : Int64} {source target : TemporalUnit}
    (h : ¬ Fits (n.toInt * source.length / target.length)) :
    convertAmount n source target =
      .error (.overflow (.conversion n source.name target.name)) := by
  rw [convertAmount, exactAmount_eq, ofInt?_of_not_fits h]

/-- A number of seconds is rounded down to whole units. -/
theorem convertAmount_of_seconds (n : Int64) (u : TemporalUnit) :
    convertAmount n .seconds u = .ok (Int64.ofInt (n.toInt / u.length)) := by
  have hseconds : n.toInt * TemporalUnit.seconds.length / u.length = n.toInt / u.length := by
    simp [TemporalUnit.length]
  rw [convertAmount_of_fits, hseconds]
  rw [hseconds]
  exact (fits_toInt n).ediv u.length_pos

theorem convertAmount_seconds_seconds (n : Int64) : convertAmount n .seconds .seconds = .ok n := by
  rw [convertAmount_of_seconds]
  simp [TemporalUnit.length]

/-- An amount of any unit has a number of seconds, as long as that number fits. -/
theorem convertAmount_to_seconds {n : Int64} {u : TemporalUnit} (h : Fits (n.toInt * u.length)) :
    convertAmount n u .seconds = .ok (Int64.ofInt (n.toInt * u.length)) := by
  have hseconds : n.toInt * u.length / TemporalUnit.seconds.length = n.toInt * u.length := by
    simp [TemporalUnit.length]
  rw [convertAmount_of_fits, hseconds]
  rwa [hseconds]

/-- Seconds in the unit of another value. -/
theorem convert_of_seconds (n : Int64) (u : TemporalUnit) :
    convert u.toValue (toValue ⟨n, .seconds⟩) =
      .ok (toValue ⟨Int64.ofInt (n.toInt / u.length), u⟩) := by
  rw [convert, u.ofValue_toValue, ofValue_toValue]
  simp only [ok_bind, amountIn, convertAmount_of_seconds]
  rfl

/-- Seconds are compared with another duration by its length in seconds. -/
theorem order_of_seconds (n : Int64) {v : Value} {d : Duration} (hread : ofValue v = .ok d)
    (hfits : Fits (d.amount.toInt * d.unit.length)) :
    order (toValue ⟨n, .seconds⟩) v =
      .ok (.nat (signOf (compare n.toInt (d.amount.toInt * d.unit.length)))) := by
  rw [order, align, ofValue_toValue, hread]
  simp only [ok_bind, amountIn, TemporalUnit.finer_seconds, convertAmount_seconds_seconds,
    convertAmount_to_seconds hfits]
  show Except.ok (Value.nat (signOf (compare n.toInt (Int64.ofInt _).toInt))) = _
  rw [toInt_ofInt hfits]

end Duration

/-- The seconds between any two date-times are a number of the language. -/
theorem DateTime.fits_secondsSince (a b : DateTime) : Fits (a.secondsSince b) := by
  -- The clock covers less than a million million seconds, whatever the offsets.
  have hfirst : -400000000000 * Clock.nanosPerSecond ≤ Clock.first := by decide
  have hlast : Clock.last ≤ 400000000000 * Clock.nanosPerSecond := by decide
  have hseconds : (a.secondsSince b).natAbs = (a.instant - b.instant).natAbs / 1000000000 :=
    Int.natAbs_tdiv _ _
  obtain ⟨ha, ha'⟩ := a.clock_inRange
  obtain ⟨hb, hb'⟩ := b.clock_inRange
  obtain ⟨hoffset, hoffset'⟩ := a.offset_inRange
  obtain ⟨hother, hother'⟩ := b.offset_inRange
  unfold instant Clock.nanosPerSecond at *
  unfold Fits minInt maxInt
  omega

end ClauseEngine
