/-
Module: ClauseEngine.Proofs.Duration.Arithmetic
Purpose: Arithmetic of durations is exact arithmetic of seconds. Two durations are brought to the finer
  of their units, which divides both, so that nothing is rounded; every result is the one of the
  seconds, and a number of units that no word holds is an overflow. The common unit changes from pair
  to pair, but the order of the seconds does not, which makes comparison a consistent order.
Main exports: Duration.exactSeconds, Duration.FitsIn, Duration.Lasts, Duration.align_exact,
  Duration.combine_exact, Duration.order_exact, Duration.arithmetic_exact
-/
import ClauseEngine.Proofs.Duration

namespace ClauseEngine

open Integer

/-- The sign of a comparison is the sign of the difference. -/
theorem Integer.toInt_signOf_compare (m n : Int) :
    (signOf (compare m n)).toInt = (m - n).sign := by
  rcases Int.lt_trichotomy m n with h | h | h
  · rw [Std.compare_eq_lt.2 h, Int.sign_eq_neg_one_of_neg (by omega)]
    rfl
  · subst h
    rw [Std.compare_self, Int.sub_self]
    rfl
  · rw [Std.compare_eq_gt.2 h, Int.sign_eq_one_of_pos (by omega)]
    rfl

namespace TemporalUnit

/-- The finer of two units is the shorter one. -/
theorem length_finer (u v : TemporalUnit) : (u.finer v).length = Min.min u.length v.length := by
  cases u <;> cases v <;> rfl

theorem finer_comm (u v : TemporalUnit) : u.finer v = v.finer u := by
  cases u <;> cases v <;> rfl

/-- Of two units the finer one divides the other. -/
theorem length_finer_dvd (u v : TemporalUnit) : ((u.finer v).length : Int) ∣ u.length := by
  cases u <;> cases v <;> decide

end TemporalUnit

namespace Duration

/-- The length of a duration in seconds, whether or not a word holds it. -/
def exactSeconds (d : Duration) : Int := d.amount.toInt * d.unit.length

/-- A number of seconds is a number of units that a word holds. -/
def FitsIn (unit : TemporalUnit) (seconds : Int) : Prop := Fits (seconds / unit.length)

instance (unit : TemporalUnit) (seconds : Int) : Decidable (FitsIn unit seconds) :=
  inferInstanceAs (Decidable (Fits _))

/-- A value is a duration in some unit, of so many seconds. -/
def Lasts (unit : TemporalUnit) (seconds : Int) (v : Value) : Prop :=
  ∃ d : Duration, v = d.toValue ∧ d.unit = unit ∧ d.exactSeconds = seconds

/-- The finer unit divides the seconds of a duration in either unit. -/
theorem finer_dvd_exactSeconds (d : Duration) (u : TemporalUnit) :
    ((d.unit.finer u).length : Int) ∣ d.exactSeconds :=
  Int.dvd_mul_of_dvd_right (d.unit.length_finer_dvd u)

/-! ### The common unit

The finer of two units divides the seconds of both durations, so both are expressed in it without
rounding. All operators that take two durations go through this step, and what they make of the
amounts is exact. -/

/-- In a unit that divides it, a duration has an exact amount. -/
theorem amountIn_exact {d : Duration} {unit : TemporalUnit}
    (hunit : (unit.length : Int) ∣ d.exactSeconds) :
    OverflowsUnless (FitsIn unit d.exactSeconds)
      (fun n => n.toInt * unit.length = d.exactSeconds) (d.amountIn unit) where
  success h := by
    refine ⟨_, convertAmount_of_fits h, ?_⟩
    have hamount := toInt_ofInt h
    rw [exactSeconds] at hamount hunit
    rw [hamount, exactSeconds]
    exact Int.ediv_mul_cancel hunit
  overflow h := ⟨_, convertAmount_of_not_fits h⟩

section Operators

variable {a b : Value} {x y : Duration} (ha : ofValue a = .ok x) (hb : ofValue b = .ok y)

include ha hb

/-- Both durations have exact amounts in the finer unit. -/
theorem align_exact :
    OverflowsUnless
      (FitsIn (x.unit.finer y.unit) x.exactSeconds ∧ FitsIn (x.unit.finer y.unit) y.exactSeconds)
      (fun aligned => aligned.unit = x.unit.finer y.unit ∧
        aligned.first.toInt * aligned.unit.length = x.exactSeconds ∧
        aligned.second.toInt * aligned.unit.length = y.exactSeconds)
      (align a b) := by
  have hother : ((x.unit.finer y.unit).length : Int) ∣ y.exactSeconds := by
    rw [TemporalUnit.finer_comm]
    exact y.finer_dvd_exactSeconds x.unit
  rw [align, ha, hb]
  refine (amountIn_exact (x.finer_dvd_exactSeconds y.unit)).bind fun first hfirst => ?_
  exact (amountIn_exact hother).map fun second hsecond => ⟨rfl, hfirst, hsecond⟩

/-- An operation that scales with its operands is exact on the seconds. -/
theorem combine_exact {operator : String} {f : Int → Int → Int}
    (hf : ∀ m n k : Int, f (m * k) (n * k) = f m n * k) :
    OverflowsUnless
      ((FitsIn (x.unit.finer y.unit) x.exactSeconds ∧
          FitsIn (x.unit.finer y.unit) y.exactSeconds) ∧
        FitsIn (x.unit.finer y.unit) (f x.exactSeconds y.exactSeconds))
      (Lasts (x.unit.finer y.unit) (f x.exactSeconds y.exactSeconds)) (combine operator f a b) := by
  refine (align_exact ha hb).bind ?_
  rintro ⟨first, second, unit⟩ ⟨rfl, hfirst, hsecond⟩
  -- The common unit divides the seconds of the result as well, and leaves the result of the amounts.
  have hseconds : f x.exactSeconds y.exactSeconds =
      f first.toInt second.toInt * (x.unit.finer y.unit).length := by
    rw [← hfirst, ← hsecond, hf]
  have hamount : f x.exactSeconds y.exactSeconds / (x.unit.finer y.unit).length =
      f first.toInt second.toInt := by
    rw [hseconds, Int.mul_ediv_cancel _ (Int.ne_of_gt (TemporalUnit.length_pos _))]
  unfold FitsIn
  rw [hamount]
  constructor
  · intro h
    rw [ofInt?_of_fits h]
    refine ⟨_, rfl, _, rfl, rfl, ?_⟩
    rw [exactSeconds, toInt_ofInt h, hseconds]
  · intro h
    rw [ofInt?_of_not_fits h]
    exact ⟨_, rfl⟩

/-- The sign of a comparison is the one of the difference in seconds. -/
theorem order_exact :
    OverflowsUnless
      (FitsIn (x.unit.finer y.unit) x.exactSeconds ∧ FitsIn (x.unit.finer y.unit) y.exactSeconds)
      (fun v => ∃ sign : Int64, v = .nat sign ∧
        sign.toInt = (x.exactSeconds - y.exactSeconds).sign)
      (order a b) := by
  refine (align_exact ha hb).map ?_
  rintro ⟨first, second, unit⟩ ⟨-, hfirst, hsecond⟩
  refine ⟨_, rfl, ?_⟩
  rw [← hfirst, ← hsecond, ← Int.sub_mul, Int.sign_mul,
    Int.sign_eq_one_of_pos unit.length_pos, Int.mul_one, toInt_signOf_compare]

end Operators

/-! ### Comparison as an order

Each pair of durations has a common unit of its own. The sign of a comparison is that of the
difference in seconds, whatever the unit, and signs of differences are consistent along chains. -/

/-- Only durations are compared. -/
theorem exists_ofValue_of_order {a b : Value} {v : Value} (h : order a b = .ok v) :
    ∃ x y, ofValue a = .ok x ∧ ofValue b = .ok y := by
  obtain ⟨aligned, haligned, -⟩ := bind_eq_ok_iff.1 h
  obtain ⟨x, hx, haligned⟩ := bind_eq_ok_iff.1 haligned
  obtain ⟨y, hy, -⟩ := bind_eq_ok_iff.1 haligned
  exact ⟨x, y, hx, hy⟩

/-- A comparison that succeeds gives the sign of the difference. -/
theorem sign_of_order {a b : Value} {x y : Duration} {sign : Int64} (ha : ofValue a = .ok x)
    (hb : ofValue b = .ok y) (h : order a b = .ok (.nat sign)) :
    sign.toInt = (x.exactSeconds - y.exactSeconds).sign := by
  obtain ⟨-, found, hfound, hsign⟩ := (order_exact ha hb).of_ok h
  cases hfound
  exact hsign

/-- Two durations compare with opposite signs when they change places, or overflow both ways. -/
theorem order_swap {a b : Value} {x y : Duration} (ha : ofValue a = .ok x)
    (hb : ofValue b = .ok y) :
    (∃ error error', order a b = .error (.overflow error) ∧
        order b a = .error (.overflow error')) ∨
      ∃ sign sign' : Int64, order a b = .ok (.nat sign) ∧ order b a = .ok (.nat sign') ∧
        sign'.toInt = -sign.toInt := by
  have hexact := order_exact ha hb
  have hexact' := order_exact hb ha
  rw [TemporalUnit.finer_comm] at hexact'
  by_cases hfits : FitsIn (x.unit.finer y.unit) x.exactSeconds ∧
      FitsIn (x.unit.finer y.unit) y.exactSeconds
  · right
    obtain ⟨_, hab, sign, rfl, hsign⟩ := hexact.success hfits
    obtain ⟨_, hba, sign', rfl, hsign'⟩ := hexact'.success hfits.symm
    refine ⟨sign, sign', hab, hba, ?_⟩
    rw [hsign, hsign', ← Int.sign_neg, Int.neg_sub]
  · left
    obtain ⟨error, hab⟩ := hexact.overflow hfits
    obtain ⟨error', hba⟩ := hexact'.overflow fun h => hfits h.symm
    exact ⟨error, error', hab, hba⟩

/-- Three comparisons that succeed, each in a unit of its own, are those of three numbers. -/
theorem order_trans {a b c : Value} {ab bc ac : Int64} (hab : order a b = .ok (.nat ab))
    (hbc : order b c = .ok (.nat bc)) (hac : order a c = .ok (.nat ac)) (hab' : ab.toInt ≤ 0)
    (hbc' : bc.toInt ≤ 0) : ac.toInt ≤ 0 ∧ (ac.toInt = 0 → ab.toInt = 0 ∧ bc.toInt = 0) := by
  obtain ⟨x, y, hx, hy⟩ := exists_ofValue_of_order hab
  obtain ⟨-, z, -, hz⟩ := exists_ofValue_of_order hbc
  rw [sign_of_order hx hy hab] at hab' ⊢
  rw [sign_of_order hy hz hbc] at hbc' ⊢
  rw [sign_of_order hx hz hac]
  simp only [Int.sign_nonpos_iff, Int.sign_eq_zero_iff_zero] at hab' hbc' ⊢
  omega

/-- Arithmetic on two durations that can be read. Their common unit is the finer one and divides both
    lengths. Sum and difference are durations in that unit whose seconds are exact; they overflow
    exactly where the number of units of an operand or of the result does not fit. A comparison gives
    the sign of the difference in seconds and overflows exactly where an operand does not fit.
    Comparisons the other way round overflow as well or give the opposite sign, and over three
    durations they are transitive, whatever the common units are. -/
theorem arithmetic_exact {a b : Value} {x y : Duration} (ha : ofValue a = .ok x)
    (hb : ofValue b = .ok y) :
    (∃ unit : TemporalUnit, unit.length = Min.min x.unit.length y.unit.length ∧
      ((unit.length : Int) ∣ x.exactSeconds ∧ (unit.length : Int) ∣ y.exactSeconds) ∧
      OverflowsUnless
        ((FitsIn unit x.exactSeconds ∧ FitsIn unit y.exactSeconds) ∧
          FitsIn unit (x.exactSeconds + y.exactSeconds))
        (Lasts unit (x.exactSeconds + y.exactSeconds)) (add a b) ∧
      OverflowsUnless
        ((FitsIn unit x.exactSeconds ∧ FitsIn unit y.exactSeconds) ∧
          FitsIn unit (x.exactSeconds - y.exactSeconds))
        (Lasts unit (x.exactSeconds - y.exactSeconds)) (subtract a b) ∧
      OverflowsUnless (FitsIn unit x.exactSeconds ∧ FitsIn unit y.exactSeconds)
        (fun v => ∃ sign : Int64, v = .nat sign ∧
          sign.toInt = (x.exactSeconds - y.exactSeconds).sign) (order a b)) ∧
    ((∃ error error', order a b = .error (.overflow error) ∧
        order b a = .error (.overflow error')) ∨
      ∃ sign sign' : Int64, order a b = .ok (.nat sign) ∧ order b a = .ok (.nat sign') ∧
        sign'.toInt = -sign.toInt) ∧
    ∀ (c : Value) (ab bc ac : Int64), order a b = .ok (.nat ab) → order b c = .ok (.nat bc) →
      order a c = .ok (.nat ac) → ab.toInt ≤ 0 → bc.toInt ≤ 0 →
        ac.toInt ≤ 0 ∧ (ac.toInt = 0 → ab.toInt = 0 ∧ bc.toInt = 0) := by
  refine ⟨⟨x.unit.finer y.unit, x.unit.length_finer y.unit,
    ⟨x.finer_dvd_exactSeconds y.unit, ?_⟩, ?_, ?_, order_exact ha hb⟩, ?_, ?_⟩
  · rw [TemporalUnit.finer_comm]
    exact y.finer_dvd_exactSeconds x.unit
  · exact combine_exact ha hb fun m n k => (Int.add_mul m n k).symm
  · exact combine_exact ha hb fun m n k => (Int.sub_mul m n k).symm
  · exact order_swap ha hb
  · intro c ab bc ac hab hbc hac
    exact order_trans hab hbc hac

/-- Two weeks and a negative second are added in seconds, where the greatest number of weeks
    overflows. -/
theorem arithmetic_exact_of_weeks_and_second :
    let weeks : Duration := ⟨2, .weeks⟩
    let most : Duration := ⟨9223372036854775807, .weeks⟩
    let second : Duration := ⟨-1, .seconds⟩
    (ofValue weeks.toValue = .ok weeks ∧ ofValue most.toValue = .ok most ∧
        ofValue second.toValue = .ok second) ∧
      (∃ v, add weeks.toValue second.toValue = .ok v ∧ Lasts .seconds 1209599 v) ∧
      ∃ error, add most.toValue second.toValue = .error (.overflow error) := by
  intro weeks most second
  have hsecond := ofValue_toValue second
  have hseconds (unit : TemporalUnit) (h : unit.length = 1) : unit = .seconds := by
    cases unit with
    | seconds => rfl
    | _ => cases h
  obtain ⟨⟨unit, hunit, -, hadd, -⟩, -⟩ := arithmetic_exact (ofValue_toValue weeks) hsecond
  obtain ⟨⟨unit', hunit', -, hadd', -⟩, -⟩ := arithmetic_exact (ofValue_toValue most) hsecond
  obtain rfl := hseconds unit hunit
  obtain rfl := hseconds unit' hunit'
  have hsum : weeks.exactSeconds + second.exactSeconds = 1209599 := by decide
  rw [hsum] at hadd
  exact ⟨⟨ofValue_toValue weeks, ofValue_toValue most, hsecond⟩, hadd.success (by decide +kernel),
    hadd'.overflow (by decide +kernel)⟩

end Duration

end ClauseEngine
