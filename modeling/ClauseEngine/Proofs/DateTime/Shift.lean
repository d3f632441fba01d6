/-
Module: ClauseEngine.Proofs.DateTime.Shift
Purpose: Shifts and differences of date-times are inverse. A shift moves the local clock, and with it
  the instant, by whole seconds, and fails exactly if the date that the clock would show is in none of
  the years covered. A difference loses less than a second, towards zero, so that a shift by it ends
  between the two date-times, less than a second from the first.
Main exports: DateTime.shift?_eq_some_iff, DateTime.instant_of_shift?, DateTime.secondsSince_of_shift?,
  DateTime.secondsSince_swap, DateTime.instant_sub_of_shift?_secondsSince, Time.shift_exact,
  Time.shifts_and_differences_inverse
-/
import ClauseEngine.Primitive.Time
import ClauseEngine.Proofs.DateTime.Clock
import ClauseEngine.Proofs.Duration.Conversion
import ClauseEngine.Proofs.Primitive.Division

namespace ClauseEngine

open Integer Clock

namespace DateTime

variable {t moved : DateTime} {seconds : Int}

/-! ### Shifts

A shift adds whole seconds to the local clock and leaves the offset alone. So it is undone by the
opposite shift, moves the instant by as much, and fails only at the ends of the range. -/

/-- A shift succeeds where the clock stays in range, and it keeps the offset. -/
theorem shift?_eq_some_iff :
    t.shift? seconds = some moved ↔
      moved.clock = t.clock + seconds * nanosPerSecond ∧ moved.offset = t.offset := by
  unfold shift? ofClock?
  constructor
  · intro h
    split at h
    · cases h
      exact ⟨rfl, rfl⟩
    · cases h
  · obtain ⟨clock, offset, hclock, hoffset⟩ := moved
    rintro ⟨rfl, rfl⟩
    rw [dif_pos ⟨hclock, hoffset⟩]

/-- A shift fails exactly if the clock would leave its range. -/
theorem shift?_eq_none_iff (t : DateTime) (seconds : Int) :
    t.shift? seconds = none ↔ ¬ InRange (t.clock + seconds * nanosPerSecond) := by
  unfold shift? ofClock?
  simp [t.offset_inRange]

/-- A shift moves the instant by as many seconds as the clock. -/
theorem instant_of_shift? (h : t.shift? seconds = some moved) :
    moved.instant = t.instant + seconds * nanosPerSecond := by
  obtain ⟨hclock, hoffset⟩ := shift?_eq_some_iff.1 h
  rw [instant, instant, hclock, hoffset]
  omega

/-- A shift is undone by the opposite one. -/
theorem shift?_neg (h : t.shift? seconds = some moved) : moved.shift? (-seconds) = some t := by
  obtain ⟨hclock, hoffset⟩ := shift?_eq_some_iff.1 h
  rw [shift?_eq_some_iff, hclock, hoffset, Int.neg_mul, Int.add_neg_cancel_right]
  exact ⟨rfl, rfl⟩

/-- The seconds of a shift are those from the old date-time to the new one. -/
theorem secondsSince_of_shift? (h : t.shift? seconds = some moved) :
    moved.secondsSince t = seconds := by
  rw [secondsSince, instant_of_shift? h, Int.add_comm, Int.add_sub_cancel]
  exact Int.mul_tdiv_cancel seconds (by decide)

/-- A date-time is shifted into the past or into the future as the sign of the seconds says. -/
theorem order_of_shift? (h : t.shift? seconds = some moved) :
    (moved.order t = .lt ↔ seconds < 0) ∧ (moved.order t = .eq ↔ seconds = 0) ∧
      (moved.order t = .gt ↔ 0 < seconds) := by
  rw [order, instant_of_shift? h, Std.compare_eq_lt, Std.compare_eq_iff_eq, Std.compare_eq_gt,
    nanosPerSecond]
  omega

/-- A shift shows the date and the time of day that so many seconds lead to. -/
theorem reading_of_shift? (h : t.shift? seconds = some moved) :
    moved.reading = t.reading.shift seconds := by
  rw [reading, reading, shift_reading, (shift?_eq_some_iff.1 h).1]

/-! ### Differences

A difference is the number of whole seconds between two instants, rounded towards zero. It is exact
after a shift, and a shift by it falls short of the other date-time by less than a second. -/

/-- Rounding towards zero does not depend on which of two date-times comes first. -/
theorem secondsSince_swap (a b : DateTime) : b.secondsSince a = -a.secondsSince b := by
  rw [secondsSince, secondsSince, ← Int.neg_tdiv, Int.neg_sub]

/-- What is left of the way from one date-time to another after the seconds between them. -/
theorem instant_sub_of_shift?_secondsSince {a b : DateTime}
    (h : b.shift? (a.secondsSince b) = some moved) :
    a.instant - moved.instant = (a.instant - b.instant).tmod nanosPerSecond := by
  rw [instant_of_shift? h, Int.tmod_def, Int.mul_comm, secondsSince]
  omega

/-- It is less than a second and no longer than the whole way, in the same direction. -/
theorem between_of_shift?_secondsSince {a b : DateTime}
    (h : b.shift? (a.secondsSince b) = some moved) :
    (a.instant - moved.instant).natAbs < nanosPerSecond ∧
      ((b.instant ≤ moved.instant ∧ moved.instant ≤ a.instant) ∨
        (a.instant ≤ moved.instant ∧ moved.instant ≤ b.instant)) := by
  have hleft := instant_sub_of_shift?_secondsSince h
  have hless : ((a.instant - b.instant).tmod nanosPerSecond).natAbs < nanosPerSecond.natAbs :=
    natAbs_tmod_lt _ (by decide)
  have hshorter : ((a.instant - b.instant).tmod nanosPerSecond).natAbs ≤
      (a.instant - b.instant).natAbs := by
    rw [Int.natAbs_tmod]
    exact Nat.mod_le _ _
  rw [← hleft] at hless hshorter
  refine ⟨Int.ofNat_lt.2 hless, ?_⟩
  rcases Int.le_total b.instant a.instant with hforward | hbackward
  · have hnonneg := Int.tmod_nonneg nanosPerSecond (Int.sub_nonneg_of_le hforward)
    rw [← hleft] at hnonneg
    exact .inl (by omega)
  · have hnonpos := Int.tmod_nonneg nanosPerSecond (Int.sub_nonneg_of_le hbackward)
    rw [← Int.neg_sub, Int.neg_tmod, ← hleft] at hnonpos
    exact .inr (by omega)

end DateTime

/-- A number of seconds is a duration of that many seconds. -/
theorem Duration.secondsOf_seconds (n : Int64) : secondsOf (toValue ⟨n, .seconds⟩) = .ok n := by
  rw [secondsOf, ofValue_toValue]
  exact convertAmount_seconds_seconds n

namespace Time

variable {d : Value} {s : Int64}

/-- A shift by a duration overflows exactly if the clock leaves its range. -/
theorem shift_exact (operator : String) (direction : Int) (t : DateTime)
    (hd : Duration.secondsOf d = .ok s) :
    OverflowsUnless (InRange (t.clock + direction * s.toInt * nanosPerSecond))
      (fun v => ∃ moved, v = .dateTime moved ∧ t.shift? (direction * s.toInt) = some moved)
      (shift operator direction (.dateTime t) d) := by
  have hshift := t.shift?_eq_none_iff (direction * s.toInt)
  rw [shift, hd, ok_bind, Value.asDateTime, ok_bind]
  cases hmoved : t.shift? (direction * s.toInt) with
  | none =>
      rw [hmoved] at hshift
      exact ⟨fun hrange => absurd hrange (hshift.1 rfl), fun _ => ⟨_, rfl⟩⟩
  | some moved =>
      rw [hmoved] at hshift
      exact ⟨fun _ => ⟨_, rfl, moved, rfl, rfl⟩, fun hrange => absurd (hshift.2 hrange) (by simp)⟩

/-- The amounts of the differences of two date-times, one way and the other. -/
theorem difference_exact (a b : DateTime) :
    ∃ n : Int64, n.toInt = a.secondsSince b ∧
      difference (.dateTime a) (.dateTime b) = .ok (Duration.toValue ⟨n, .seconds⟩) :=
  ⟨Int64.ofInt (a.secondsSince b), toInt_ofInt (DateTime.fits_secondsSince a b), rfl⟩

/-- The difference to a shifted date-time is the shift. -/
theorem difference_of_shift? {t moved : DateTime} (h : t.shift? s.toInt = some moved) :
    difference (.dateTime moved) (.dateTime t) = .ok (Duration.toValue ⟨s, .seconds⟩) := by
  obtain ⟨n, hn, hdifference⟩ := difference_exact moved t
  rw [DateTime.secondsSince_of_shift? h] at hn
  rw [hdifference, Int64.toInt_inj.1 hn]

/-- Subtracting a shift leads back. -/
theorem subtract_of_shift? {t moved : DateTime} (hd : Duration.secondsOf d = .ok s)
    (h : t.shift? s.toInt = some moved) : subtract (.dateTime moved) d = .ok (.dateTime t) := by
  have hback := DateTime.shift?_neg h
  rw [subtract, shift, hd, ok_bind, Value.asDateTime, ok_bind, Int.neg_mul, Int.one_mul, hback]
  rfl

/-- A test of two date-times decides what it accepts of their order. -/
theorem test_eq {accepts : Ordering → Bool} {x y : DateTime} {p : Prop} [Decidable p]
    (h : accepts (x.order y) = true ↔ p) :
    test accepts (.dateTime x) (.dateTime y) = .ok (.bool (decide p)) := by
  rw [← Bool.eq_iff_iff.2 (h.trans decide_eq_true_iff.symm)]
  rfl

/-- Shifts and differences of date-times. A date-time is moved by a duration unless the date that its
    clock would show is in none of the years -9999 to 9999, which is an overflow. The result has the
    same offset and shows the date and time so many seconds later; the difference from the old
    date-time is the number of seconds, the same duration taken away gives the old date-time back, and
    the order of the two is the sign of the seconds. The differences of two date-times are opposite,
    and if the second is moved by the difference, it ends between the two, less than a second from
    the first. -/
theorem shifts_and_differences_inverse (t : DateTime) (hd : Duration.secondsOf d = .ok s) :
    OverflowsUnless
      (-9999 ≤ (t.reading.shift s.toInt).date.year ∧ (t.reading.shift s.toInt).date.year ≤ 9999)
      (fun v => ∃ moved : DateTime, v = .dateTime moved ∧
        moved.reading = t.reading.shift s.toInt ∧ moved.offset = t.offset ∧
        difference v (.dateTime t) = .ok (Duration.toValue ⟨s, .seconds⟩) ∧
        subtract v d = .ok (.dateTime t) ∧
        test Ordering.isLT v (.dateTime t) = .ok (.bool (decide (s.toInt < 0))) ∧
        test Ordering.isEq v (.dateTime t) = .ok (.bool (decide (s.toInt = 0))) ∧
        test Ordering.isGT v (.dateTime t) = .ok (.bool (decide (0 < s.toInt))))
      (add (.dateTime t) d) ∧
    ∀ a b : DateTime, ∃ n m : Int64,
      difference (.dateTime a) (.dateTime b) = .ok (Duration.toValue ⟨n, .seconds⟩) ∧
      difference (.dateTime b) (.dateTime a) = .ok (Duration.toValue ⟨m, .seconds⟩) ∧
      m.toInt = -n.toInt ∧
      ∀ v, add (.dateTime b) (Duration.toValue ⟨n, .seconds⟩) = .ok v →
        ∃ moved : DateTime, v = .dateTime moved ∧
          (a.instant - moved.instant).natAbs < nanosPerSecond ∧
          ((b.instant ≤ moved.instant ∧ moved.instant ≤ a.instant) ∨
            (a.instant ≤ moved.instant ∧ moved.instant ≤ b.instant)) := by
  constructor
  · have hadd := shift_exact "date_time_add" 1 t hd
    rw [Int.one_mul, inRange_iff_year, ← shift_reading] at hadd
    apply hadd.mono
    rintro _ ⟨moved, rfl, hmoved⟩
    obtain ⟨hbefore, hsame, hafter⟩ := DateTime.order_of_shift? hmoved
    refine ⟨moved, rfl, DateTime.reading_of_shift? hmoved, (DateTime.shift?_eq_some_iff.1 hmoved).2,
      difference_of_shift? hmoved, subtract_of_shift? hd hmoved, ?_, ?_, ?_⟩
    · exact test_eq (Ordering.isLT_iff_eq_lt.trans hbefore)
    · exact test_eq (Ordering.isEq_iff_eq_eq.trans hsame)
    · exact test_eq (Ordering.isGT_iff_eq_gt.trans hafter)
  · intro a b
    obtain ⟨n, hn, hdifference⟩ := difference_exact a b
    obtain ⟨m, hm, hopposite⟩ := difference_exact b a
    refine ⟨n, m, hdifference, hopposite, ?_, ?_⟩
    · rw [hm, hn, DateTime.secondsSince_swap]
    · intro v hv
      have hadd := shift_exact "date_time_add" 1 b (Duration.secondsOf_seconds n)
      obtain ⟨-, moved, rfl, hmoved⟩ := hadd.of_ok hv
      rw [Int.one_mul, hn] at hmoved
      exact ⟨moved, rfl, DateTime.between_of_shift?_secondsSince hmoved⟩

/-- A week before the first day of the year 1 is Christmas of the year 0, whatever the offset. There is
    no second after the last one of the year 9999. -/
theorem shifts_and_differences_inverse_at_limits :
    let start : DateTime := ⟨0, 90, by decide, by decide⟩
    let last : DateTime := ⟨Clock.last, 0, by decide, by decide⟩
    let week := Duration.toValue ⟨-1, .weeks⟩
    let second := Duration.toValue ⟨1, .seconds⟩
    (Duration.secondsOf week = .ok (-604800) ∧ Duration.secondsOf second = .ok 1) ∧
      (∃ moved : DateTime, add (.dateTime start) week = .ok (.dateTime moved) ∧
        moved.date = ⟨0, 12, 25⟩ ∧ moved.offset = 90 ∧
        subtract (.dateTime moved) week = .ok (.dateTime start)) ∧
      ∃ error, add (.dateTime last) second = .error (.overflow error) := by
  intro start last week second
  have hweek : Duration.secondsOf week = .ok (-604800) := rfl
  have hsecond : Duration.secondsOf second = .ok 1 := rfl
  obtain ⟨hearlier, -⟩ := shifts_and_differences_inverse start hweek
  obtain ⟨hlater, -⟩ := shifts_and_differences_inverse last hsecond
  obtain ⟨_, hadd, moved, rfl, hreading, hoffset, -, hback, -⟩ :=
    hearlier.success (by decide +kernel)
  have hdate : moved.reading.date = ⟨0, 12, 25⟩ := by
    rw [hreading]
    decide +kernel
  exact ⟨⟨hweek, hsecond⟩, ⟨moved, hadd, hdate, hoffset, hback⟩,
    hlater.overflow (by decide +kernel)⟩

end Time

end ClauseEngine
