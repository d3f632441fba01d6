/-
Module: ClauseEngine.Proofs.Calendar
Purpose: A day and its date determine each other. The year found holds the day, the month found holds
  the day of the year, and counting back from both gives the day again.
Main exports: Calendar.daysBeforeYear_yearOfDay, Calendar.daysBeforeYear_mono,
  Calendar.yearOfDay_lt_iff, Calendar.yearOfDay_eq, Calendar.monthOfDay_spec, Calendar.monthOfDay_eq,
  Date.isValid_ofDayNumber, Date.dayNumber_ofDayNumber, Date.year_ofDayNumber_dayNumber,
  Date.ofDayNumber_dayNumber
-/
import ClauseEngine.Calendar

namespace ClauseEngine

namespace Calendar

/-! ### Years

The days before a year are given by a formula with three divisions. It grows by the length of a
year, which puts every day into exactly one year; the mean length of a year leads to that year up to
one, and two comparisons correct it. -/

/-- The days before a year, with the leap days of the years before it. -/
theorem daysBeforeYear_eq (year : Int) :
    daysBeforeYear year =
      365 * (year - 1) + (year - 1) / 4 - (year - 1) / 100 + (year - 1) / 400 :=
  rfl

/-- A later year has no fewer days before it. -/
theorem daysBeforeYear_mono {y z : Int} (h : y ≤ z) : daysBeforeYear y ≤ daysBeforeYear z := by
  simp only [daysBeforeYear_eq]
  omega

/-- The year found holds the day. -/
theorem daysBeforeYear_yearOfDay (day : Int) :
    daysBeforeYear (yearOfDay day) ≤ day ∧ day < daysBeforeYear (yearOfDay day + 1) := by
  simp only [yearOfDay]
  split
  · simp only [daysBeforeYear_eq] at *
    omega
  · split
    · simp only [daysBeforeYear_eq] at *
      omega
    · simp only [daysBeforeYear_eq] at *
      omega

/-- A day lies before a year exactly if it comes before the first day of that year. -/
theorem yearOfDay_lt_iff {day year : Int} : yearOfDay day < year ↔ day < daysBeforeYear year := by
  obtain ⟨hstart, hend⟩ := daysBeforeYear_yearOfDay day
  constructor
  · intro h
    exact Int.lt_of_lt_of_le hend (daysBeforeYear_mono h)
  · intro h
    apply Int.not_le.1
    intro hlate
    exact Int.not_le.2 h (Int.le_trans (daysBeforeYear_mono hlate) hstart)

/-- A day lies in one year only. -/
theorem yearOfDay_eq {day year : Int} (hstart : daysBeforeYear year ≤ day)
    (hend : day < daysBeforeYear (year + 1)) : yearOfDay day = year := by
  have hlow : ¬ yearOfDay day < year := fun h => Int.not_lt.2 hstart (yearOfDay_lt_iff.1 h)
  have hhigh : yearOfDay day < year + 1 := yearOfDay_lt_iff.2 hend
  omega

/-- A year is as long as its months together. -/
theorem daysBeforeYear_succ (year : Int) :
    daysBeforeYear (year + 1) = daysBeforeYear year + daysInMonths year 12 := by
  simp only [daysInMonths, daysInMonth, isLeap, daysBeforeYear_eq, Bool.and_eq_true,
    Bool.or_eq_true, decide_eq_true_eq, bne_iff_ne]
  split <;> omega

/-! ### Months

The days up to the end of a month grow with the month. The month found is the first whose end lies
after the day, so that the month before it ends no later than the day begins. -/

theorem daysInMonth_le (year : Int) (month : Nat) : daysInMonth year month ≤ 31 := by
  unfold daysInMonth
  split
  · split <;> omega
  all_goals omega

theorem daysInMonths_mono (year : Int) {m n : Nat} (h : m ≤ n) :
    daysInMonths year m ≤ daysInMonths year n := by
  induction h with
  | refl => exact Nat.le_refl _
  | step _ ih => exact Nat.le_trans ih (Nat.le_add_right _ _)

/-- A search through the first numbers finds the first of them that has an answer. -/
theorem first_of_findSome?_range {β : Type} {f : Nat → Option β} {n : Nat} {b : β}
    (h : (List.range n).findSome? f = some b) :
    ∃ m < n, f m = some b ∧ ∀ i < m, f i = none := by
  induction n with
  | zero => simp at h
  | succ n ih =>
      rw [List.range_succ, List.findSome?_append] at h
      cases hfirst : (List.range n).findSome? f with
      | some c =>
          obtain ⟨m, hm, hfound⟩ := ih (by rw [hfirst] at h ⊢; exact h)
          exact ⟨m, by omega, hfound⟩
      | none =>
          rw [hfirst, Option.none_or, List.findSome?_singleton] at h
          refine ⟨n, by omega, h, fun i hi => ?_⟩
          exact List.findSome?_eq_none_iff.1 hfirst i (List.mem_range.2 hi)

/-- The month found holds the day of the year. -/
theorem monthOfDay_spec {year : Int} {dayOfYear : Nat} (h : dayOfYear < daysInMonths year 12) :
    1 ≤ monthOfDay year dayOfYear ∧ monthOfDay year dayOfYear ≤ 12 ∧
      daysInMonths year (monthOfDay year dayOfYear - 1) ≤ dayOfYear ∧
      dayOfYear < daysInMonths year (monthOfDay year dayOfYear) := by
  have hsome : ((List.range 12).findSome? fun month =>
      if dayOfYear < daysInMonths year (month + 1) then some (month + 1) else none).isSome := by
    refine List.findSome?_isSome_iff.2 ⟨11, List.mem_range.2 (by omega), ?_⟩
    rw [if_pos h]
    rfl
  obtain ⟨found, hfound⟩ := Option.isSome_iff_exists.1 hsome
  obtain ⟨month, hmonth, hthis, hearlier⟩ := first_of_findSome?_range hfound
  have hmonthOfDay : monthOfDay year dayOfYear = found := by
    rw [monthOfDay, hfound, Option.getD_some]
  split at hthis
  · rename_i hbelow
    obtain rfl : month + 1 = found := Option.some.inj hthis
    rw [hmonthOfDay]
    refine ⟨by omega, by omega, ?_, hbelow⟩
    cases month with
    | zero => exact Nat.zero_le _
    | succ previous =>
        have hnone := hearlier previous (by omega)
        split at hnone
        · cases hnone
        · rw [Nat.add_sub_cancel]
          omega
  · cases hthis

/-- A day of a year lies in one month only. -/
theorem monthOfDay_eq {year : Int} {dayOfYear month : Nat} (hmonth : month ≤ 12)
    (hstart : daysInMonths year (month - 1) ≤ dayOfYear)
    (hend : dayOfYear < daysInMonths year month) : monthOfDay year dayOfYear = month := by
  obtain ⟨-, -, hstart', hend'⟩ :=
    monthOfDay_spec (Nat.lt_of_lt_of_le hend (daysInMonths_mono year hmonth))
  rcases Nat.lt_trichotomy (monthOfDay year dayOfYear) month with hlt | heq | hgt
  · have hle := daysInMonths_mono year (Nat.le_sub_one_of_lt hlt)
    omega
  · exact heq
  · have hle := daysInMonths_mono year (Nat.le_sub_one_of_lt hgt)
    omega

end Calendar

namespace Date

open Calendar

/-- A date is valid if its month is one of twelve and its day one of that month. -/
theorem isValid_iff {d : Date} :
    d.isValid = true ↔
      (1 ≤ d.month ∧ d.month ≤ 12) ∧ 1 ≤ d.day ∧ d.day ≤ daysInMonth d.year d.month := by
  simp only [isValid, Bool.and_eq_true, decide_eq_true_eq, and_assoc]

/-- The day of the year found lies in the year. -/
theorem dayOfYear_lt (day : Int) :
    (day - daysBeforeYear (yearOfDay day)).toNat < daysInMonths (yearOfDay day) 12 := by
  have hyear := daysBeforeYear_yearOfDay day
  have hlength := daysBeforeYear_succ (yearOfDay day)
  omega

/-- The date of a day exists. -/
theorem isValid_ofDayNumber (day : Int) : (ofDayNumber day).isValid = true := by
  obtain ⟨hlow, hhigh, hstart, hend⟩ := monthOfDay_spec (dayOfYear_lt day)
  rw [isValid_iff]
  simp only [ofDayNumber]
  obtain ⟨previous, hmonth⟩ := Nat.exists_eq_add_of_le' hlow
  rw [hmonth, Nat.add_sub_cancel] at hstart
  rw [hmonth, daysInMonths] at hend
  rw [hmonth, Nat.add_sub_cancel]
  omega

/-- Counting back from the date of a day gives the day. -/
theorem dayNumber_ofDayNumber (day : Int) : (ofDayNumber day).dayNumber = day := by
  obtain ⟨hlow, hhigh, hstart, hend⟩ := monthOfDay_spec (dayOfYear_lt day)
  have hyear := daysBeforeYear_yearOfDay day
  simp only [dayNumber, ofDayNumber]
  omega

/-- The day of a date lies in the year of the date. -/
theorem year_ofDayNumber_dayNumber {d : Date} (h : d.isValid = true) :
    (ofDayNumber d.dayNumber).year = d.year := by
  obtain ⟨⟨hlow, hhigh⟩, hfirst, hlast⟩ := isValid_iff.1 h
  obtain ⟨previous, hmonth⟩ := Nat.exists_eq_add_of_le' hlow
  have hmonths : daysInMonths d.year previous + daysInMonth d.year d.month ≤
      daysInMonths d.year 12 := by
    have hle := daysInMonths_mono d.year hhigh
    rwa [hmonth, daysInMonths, ← hmonth] at hle
  have hlength := daysBeforeYear_succ d.year
  apply yearOfDay_eq
  · rw [dayNumber]
    omega
  · rw [dayNumber, hmonth, Nat.add_sub_cancel]
    omega

/-- The date of the day of a date is that date. -/
theorem ofDayNumber_dayNumber {d : Date} (h : d.isValid = true) : ofDayNumber d.dayNumber = d := by
  obtain ⟨⟨hlow, hhigh⟩, hfirst, hlast⟩ := isValid_iff.1 h
  have hyear : yearOfDay d.dayNumber = d.year := year_ofDayNumber_dayNumber h
  have hday : (d.dayNumber - daysBeforeYear d.year).toNat =
      daysInMonths d.year (d.month - 1) + (d.day - 1) := by
    rw [dayNumber]
    omega
  have hmonth : monthOfDay d.year (daysInMonths d.year (d.month - 1) + (d.day - 1)) = d.month := by
    apply monthOfDay_eq hhigh (Nat.le_add_right _ _)
    obtain ⟨previous, hprevious⟩ := Nat.exists_eq_add_of_le' hlow
    rw [hprevious] at hlast
    rw [hprevious, Nat.add_sub_cancel, daysInMonths]
    omega
  rw [ofDayNumber, hyear, hday, hmonth, Nat.add_sub_cancel_left, Nat.sub_add_cancel hfirst]

end Date

end ClauseEngine
