/-
Module: ClauseEngine.Proofs.DateTime.Text
Purpose: A timestamp that is written is read back as it was. Each part of the text is read by its own
  scanner and leaves the rest of the text to the next one; the parts read then give the clock again.
Main exports: DateTime.valueOf_padded, DateTime.digits_padded, DateTime.fraction_written,
  DateTime.readTimestamp_writeTimestamp, DateTime.read_write
-/
import ClauseEngine.DateTime.Text
import ClauseEngine.Proofs.DateTime.Clock

namespace ClauseEngine

namespace DateTime

open Scan

/-! ### Digits

A number is written with a fixed number of digits, the last digit last. Reading multiplies by ten
from the left, and both recursions meet at the last digit. -/

@[simp] theorem length_padded (width n : Nat) : (padded width n).length = width := by
  induction width generalizing n with
  | zero => rfl
  | succ width ih => simp [padded, ih]

theorem all_isDigit_padded (width n : Nat) : (padded width n).all Char.isDigit = true := by
  induction width generalizing n with
  | zero => rfl
  | succ width ih =>
      have hdigit : n % 10 < 10 := Nat.mod_lt _ (by omega)
      simp [padded, List.all_append, ih, Nat.isDigit_digitChar, hdigit]

/-- A last digit counts once, and all digits before it ten times as much. -/
theorem valueOf_append_digit (cs : List Char) (c : Char) :
    valueOf (cs ++ [c]) = valueOf cs * 10 + (c.toNat - '0'.toNat) := by
  simp [valueOf, List.foldl_append]

/-- A number that fits is the value of its digits. -/
theorem valueOf_padded {width n : Nat} (h : n < Nat.pow 10 width) : valueOf (padded width n) = n := by
  induction width generalizing n with
  | zero =>
      obtain rfl : n = 0 := by simpa using h
      rfl
  | succ width ih =>
      have hquot : n / 10 < Nat.pow 10 width := Nat.div_lt_of_lt_mul (Nat.mul_comm _ 10 ▸ h)
      have hdigit : (Nat.digitChar (n % 10)).toNat = 48 + n % 10 :=
        Nat.toNat_digitChar_of_lt_ten (Nat.mod_lt _ (by omega))
      have hzero : '0'.toNat = 48 := rfl
      rw [padded, valueOf_append_digit, ih hquot, hdigit, hzero]
      omega

/-! ### Reading one part after another

A scanner that reads what was written leaves exactly the rest of the text. In a chain of scanners
each of these facts is used once, by `bind_ok`. -/

/-- A part that is read leaves the rest of the text to the next. -/
theorem bind_ok {α β : Type} {first : Scan α} {next : α → Scan β} {text rest : List Char} {a : α}
    (h : first text = .ok (a, rest)) : (first >>= next) text = next a rest := by
  show (first text >>= fun p => next p.1 p.2) = _
  rw [h]
  rfl

theorem literal_cons (c : Char) (rest : List Char) : literal c (c :: rest) = .ok ((), rest) := by
  simp [literal]

theorem separator_time (rest : List Char) : separator ('T' :: rest) = .ok ((), rest) := rfl

/-- A number that fits its width is read back from its digits. -/
theorem digits_padded {width n : Nat} (h : n < Nat.pow 10 width) (part : Component) (rest : List Char) :
    digits width part (padded width n ++ rest) = .ok (n, rest) := by
  have htake : (padded width n ++ rest).take width = padded width n :=
    List.take_left' (length_padded width n)
  have hdrop : (padded width n ++ rest).drop width = rest :=
    List.drop_left' (length_padded width n)
  simp [digits, htake, hdrop, all_isDigit_padded, valueOf_padded h]

/-- A number of two digits is read back if its part of the text admits it. -/
theorem pair_padded (part : Component) {n : Nat} (h : n < 100) (hadmits : part.admits n = true)
    (rest : List Char) : pair part (padded 2 n ++ rest) = .ok (n, rest) := by
  rw [pair, bind_ok (digits_padded h part rest), if_pos hadmits]
  rfl

/-- The month and the day of a date. -/
theorem monthAndDay_padded {d : Date} (h : d.isValid = true) (rest : List Char) :
    monthAndDay d.year ('-' :: (padded 2 d.month ++ '-' :: (padded 2 d.day ++ rest))) =
      .ok (d, rest) := by
  obtain ⟨⟨hlow, hhigh⟩, hfirst, hlast⟩ := Date.isValid_iff.1 h
  have hlength : Calendar.daysInMonth d.year d.month ≤ 31 := Calendar.daysInMonth_le _ _
  rw [monthAndDay, bind_ok (literal_cons '-' _),
    bind_ok (pair_padded .month (by omega) (by simp [Component.admits]; omega) _),
    bind_ok (literal_cons '-' _),
    bind_ok (pair_padded .day (by omega) (by simp [Component.admits]; omega) _)]
  rfl

/-- The time of day of hours, minutes and seconds in their ranges. -/
theorem timeOfDay_padded {hour minute second : Nat} (hhour : hour < 24) (hminute : minute < 60)
    (hsecond : second < 60) (rest : List Char) :
    timeOfDay (padded 2 hour ++ ':' :: (padded 2 minute ++ ':' :: (padded 2 second ++ rest))) =
      .ok ((hour * 3600 + minute * 60, second), rest) := by
  rw [timeOfDay,
    bind_ok (pair_padded .hour (by omega) (by simp [Component.admits]; omega) _),
    bind_ok (literal_cons ':' _),
    bind_ok (pair_padded .minute (by omega) (by simp [Component.admits]; omega) _),
    bind_ok (literal_cons ':' _),
    bind_ok (pair_padded .second (by omega) (by simp [Component.admits]; omega) _)]
  rfl

/-! ### Fractions of a second

Trailing zeros are dropped when a fraction is written, and filled up again when it is read. -/

/-- The digits of a fraction, filled up with zeros again. -/
theorem fractionDigits_append_zeros (nano : Nat) :
    fractionDigits nano ++ List.replicate (9 - (fractionDigits nano).length) '0' =
      padded 9 nano := by
  have hsplit := List.takeWhile_append_dropWhile (p := (· == '0')) (l := (padded 9 nano).reverse)
  have hlength := congrArg List.length hsplit
  rw [List.length_append, List.length_reverse, length_padded] at hlength
  have hzeros : (padded 9 nano).reverse.takeWhile (· == '0') =
      List.replicate (9 - (fractionDigits nano).length) '0' := by
    refine List.eq_replicate_iff.2 ⟨?_, fun c hc => ?_⟩
    · rw [fractionDigits, List.length_reverse]
      omega
    · simpa using List.all_eq_true.1 List.all_takeWhile c hc
  rw [hzeros] at hsplit
  have hreverse := congrArg List.reverse hsplit
  rwa [List.reverse_append, List.reverse_replicate, List.reverse_reverse] at hreverse

theorem length_fractionDigits_le (nano : Nat) : (fractionDigits nano).length ≤ 9 := by
  have hlength := congrArg List.length (fractionDigits_append_zeros nano)
  rw [List.length_append, List.length_replicate, length_padded] at hlength
  omega

theorem isDigit_of_mem_fractionDigits {nano : Nat} {c : Char} (h : c ∈ fractionDigits nano) :
    c.isDigit = true := by
  refine List.all_eq_true.1 (all_isDigit_padded 9 nano) c ?_
  rw [← fractionDigits_append_zeros]
  exact List.mem_append_left _ h

/-- A fraction is read back from what is written for it, which is nothing for a whole second. What
    follows must not look like a part of it. -/
theorem fraction_written {nano : Nat} (h : nano < 1000000000) {mark : Char} {tail : List Char}
    (hdigit : mark.isDigit = false) (hpoint : mark ≠ '.') :
    fraction ((if (fractionDigits nano).isEmpty then [] else '.' :: fractionDigits nano) ++
      mark :: tail) = .ok (nano, mark :: tail) := by
  have hzeros := fractionDigits_append_zeros nano
  have hvalue : valueOf (padded 9 nano) = nano := valueOf_padded h
  split
  · rename_i hempty
    rw [List.isEmpty_iff.1 hempty] at hzeros
    have hnano : nano = 0 := by
      rw [← hvalue, ← hzeros]
      rfl
    rw [List.nil_append, hnano]
    unfold fraction
    split
    · rename_i heq
      exact absurd (List.cons.inj heq).1 hpoint
    · rfl
  · rename_i hnonempty
    have htake : (fractionDigits nano ++ mark :: tail).takeWhile Char.isDigit =
        fractionDigits nano := by
      rw [List.takeWhile_append_of_pos fun c => isDigit_of_mem_fractionDigits]
      simp [hdigit]
    have hdrop : (fractionDigits nano ++ mark :: tail).dropWhile Char.isDigit = mark :: tail := by
      rw [List.dropWhile_append_of_pos fun c => isDigit_of_mem_fractionDigits]
      simp [hdigit]
    simp only [List.cons_append, fraction, htake, hdrop]
    rw [if_neg hnonempty, List.take_of_length_le (length_fractionDigits_le nano), hzeros, hvalue]

/-! ### Offsets

An offset is written with a sign, or as a single letter if it is zero. Either way the first
character is no digit, which ends the fraction before it. -/

/-- Hours and minutes after a sign. -/
theorem zone_signed {mark : Char} (hmark : mark = '+' ∨ mark = '-') {hour minute : Nat}
    (hhour : hour < 24) (hminute : minute < 60) :
    zone (mark :: (padded 2 hour ++ ':' :: padded 2 minute)) =
      .ok (if mark = '-' then -(hour * 60 + minute : Int) else hour * 60 + minute, []) := by
  have hend : padded 2 minute = padded 2 minute ++ [] := (List.append_nil _).symm
  have hpair : pair .hour (padded 2 hour ++ ':' :: padded 2 minute) =
      .ok (hour, ':' :: padded 2 minute) :=
    pair_padded .hour (by omega) (by simp [Component.admits]; omega) _
  have hpair' : pair .minute (padded 2 minute) = .ok (minute, []) := by
    rw [hend]
    exact pair_padded .minute (by omega) (by simp [Component.admits]; omega) _
  rcases hmark with rfl | rfl
  · exact (bind_ok hpair).trans ((bind_ok (literal_cons ':' _)).trans (bind_ok hpair'))
  · exact (bind_ok hpair).trans ((bind_ok (literal_cons ':' _)).trans (bind_ok hpair'))

/-- An offset is read back from what is written for it. -/
theorem zone_written {offset : Int} (h : Clock.OffsetInRange offset) :
    zone (if offset = 0 then ['Z'] else writeOffset offset) = .ok (offset, []) := by
  obtain ⟨hlow, hhigh⟩ := h
  split
  · rename_i hzero
    rw [hzero]
    rfl
  · have hhour : offset.natAbs / 60 < 24 := by omega
    have hminute : offset.natAbs % 60 < 60 := Nat.mod_lt _ (by omega)
    rw [writeOffset, List.cons_append]
    by_cases hneg : offset < 0
    · rw [if_pos hneg, zone_signed (Or.inr rfl) hhour hminute, if_pos rfl]
      congr 2
      omega
    · rw [if_neg hneg, zone_signed (Or.inl rfl) hhour hminute, if_neg (by decide)]
      congr 2
      omega

/-- The text of an offset starts with a mark that is no part of a fraction. -/
theorem zone_cons (offset : Int) : ∃ mark tail,
    (if offset = 0 then ['Z'] else writeOffset offset) = mark :: tail ∧
      mark.isDigit = false ∧ mark ≠ '.' := by
  split
  · exact ⟨'Z', [], rfl, rfl, by decide⟩
  · rw [writeOffset, List.cons_append]
    refine ⟨_, _, rfl, ?_⟩
    split
    · exact ⟨rfl, by decide⟩
    · exact ⟨rfl, by decide⟩

/-! ### The readings of a clock

Hour, minute, second and nanosecond come from one number by division with remainder, and give it
back. -/

theorem nanoOfDay_lt (t : DateTime) : t.nanoOfDay < 86400000000000 := by
  unfold nanoOfDay Clock.nanosPerDay Clock.secondsPerDay Clock.nanosPerSecond
  omega

theorem hour_lt (t : DateTime) : t.hour < 24 := by
  have hnanos := t.nanoOfDay_lt
  unfold hour
  omega

theorem minute_lt (t : DateTime) : t.minute < 60 := Nat.mod_lt _ (by omega)

theorem second_lt (t : DateTime) : t.second < 60 := Nat.mod_lt _ (by omega)

theorem nano_lt (t : DateTime) : t.nano < 1000000000 := Nat.mod_lt _ (by omega)

/-- The readings of a clock give the clock. -/
theorem clock_of_readings (t : DateTime) :
    (t.date.dayNumber * Clock.secondsPerDay +
        ((t.hour * 3600 + t.minute * 60 + t.second : Nat) : Int)) * Clock.nanosPerSecond + t.nano =
      t.clock := by
  have hday : t.date.dayNumber = t.clock / Clock.nanosPerDay := Date.dayNumber_ofDayNumber _
  rw [hday]
  unfold hour minute second nano nanoOfDay Clock.nanosPerDay Clock.secondsPerDay Clock.nanosPerSecond
  omega

/-- A date-time is the one that its own readings give. -/
theorem ofReadings?_self (t : DateTime) :
    ofReadings? t.date (t.hour * 3600 + t.minute * 60 + t.second) t.nano t.offset = some t := by
  rw [ofReadings?, clock_of_readings, ofClock?, dif_pos ⟨t.clock_inRange, t.offset_inRange⟩]

/-! ### Timestamps

The parts are put together in the order of the text. From the year 0 on a year has four digits and no
sign, and a second is never that of a leap second. -/

/-- A timestamp that is written is read back. -/
theorem readTimestamp_writeTimestamp {t : DateTime} (h : 0 ≤ t.date.year) :
    readTimestamp (writeTimestamp t) = .ok t := by
  have hyear : t.date.year.natAbs < 10 ^ 4 := by
    have := t.year_le
    omega
  have hvalid : t.date.isValid = true := Date.isValid_ofDayNumber _
  obtain ⟨mark, tail, hzone, hdigit, hpoint⟩ := zone_cons t.offset
  have hwrite : writeTimestamp t = padded 4 t.date.year.natAbs ++ '-' :: (padded 2 t.date.month ++
      '-' :: (padded 2 t.date.day ++ 'T' :: (padded 2 t.hour ++ ':' :: (padded 2 t.minute ++ ':' ::
        (padded 2 t.second ++ ((if (fractionDigits t.nano).isEmpty then []
          else '.' :: fractionDigits t.nano) ++ (mark :: tail))))))) := by
    simp [writeTimestamp, writeDate, ← hzone]
  unfold readTimestamp
  dsimp only
  rw [hwrite, bind_ok (digits_padded hyear .year _), Int.natAbs_of_nonneg h,
    bind_ok (monthAndDay_padded hvalid _), bind_ok (separator_time _),
    bind_ok (timeOfDay_padded t.hour_lt t.minute_lt t.second_lt _)]
  dsimp only
  rw [bind_ok (fraction_written t.nano_lt hdigit hpoint), ← hzone,
    bind_ok (zone_written t.offset_inRange)]
  have hsecond : t.second ≠ 60 := by
    have := t.second_lt
    omega
  show (if (!t.date.isValid) = true then _ else _) = _
  rw [hvalid]
  simp [hsecond, ofReadings?_self, require]

/-- A date-time from the year 0 on is read back from its written form. -/
theorem read_write {t : DateTime} (h : 0 ≤ t.date.year) : read t.write = .ok t := by
  simp only [read, write, if_pos h, String.toList_ofList, readTimestamp_writeTimestamp h]

end DateTime

end ClauseEngine
