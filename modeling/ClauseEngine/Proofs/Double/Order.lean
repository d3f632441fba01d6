/-
Module: ClauseEngine.Proofs.Double.Order
Purpose: What the order of bit patterns means. A finite double is a whole number of steps of the
  least positive one, and the number of steps grows with the magnitude of the pattern. So patterns
  compare by the numbers they denote; where a NaN takes part there is no number, and they compare by
  the total order of patterns.
Main exports: Double.toRat, Double.number?, Double.numericOrder?, Double.totalOrder,
  Double.min_spec, Double.order_eq_numeric_or_total, Double.Same, Double.order_eq_iff_same
-/
import ClauseEngine.Double.Basic
import Mathlib.Algebra.Order.Field.Rat
import Mathlib.Tactic.Ring

namespace ClauseEngine

namespace Double

/-! ### The number that a pattern denotes

A finite pattern is a significand times a power of two, with a sign. Infinities are ends of the line
and a NaN is no number at all. -/

/-- The exact value of a finite double. -/
def toRat (x : Double) : ℚ :=
  (if x.isNegative then -1 else 1) * x.significand * (2 : ℚ) ^ x.exponent

/-- The number that a pattern denotes, finite or infinite. A NaN denotes none. -/
def number? (x : Double) : Option (WithBot (WithTop ℚ)) :=
  if x.isNaN then none
  else if x.isInfinite then some (if x.isNegative then ⊥ else ((⊤ : WithTop ℚ) : WithBot (WithTop ℚ)))
  else some ((x.toRat : WithTop ℚ) : WithBot (WithTop ℚ))

/-- Comparison of the numbers denoted, if there are two. -/
def numericOrder? (x y : Double) : Option Ordering := do
  return compare (← x.number?) (← y.number?)

/-- The place of a pattern in the total order of patterns: the patterns with the sign bit come
    first, the greatest magnitude of them before all others. -/
def totalRank (x : Double) : Int :=
  if x.isNegative then -1 - (x.magnitude : Int) else x.magnitude

/-- Comparison of patterns that tells all of them apart. -/
def totalOrder (x y : Double) : Ordering := compare x.totalRank y.totalRank

/-! ### Steps of the least positive double

Counted in steps of the least positive double, magnitudes become whole numbers, and a larger pattern
has more steps. The only place to look at is the carry from the significand into the exponent. -/

/-- The number of steps of the least positive double in a magnitude. -/
def steps (magnitude : Nat) : Nat :=
  if magnitude / leadingWeight = 0 then magnitude
  else (magnitude % leadingWeight + leadingWeight) * 2 ^ (magnitude / leadingWeight - 1)

/-- One more unit in the pattern is at least one more step. A carry out of the significand doubles
    the step, and the significand starts again at its leading bit. -/
theorem steps_lt_succ (m : Nat) : steps m < steps (m + 1) := by
  have hweight : leadingWeight = 4503599627370496 := rfl
  unfold steps
  rw [hweight]
  have hcarry : ((m + 1) / 4503599627370496 = m / 4503599627370496 ∧
        (m + 1) % 4503599627370496 = m % 4503599627370496 + 1) ∨
      ((m + 1) / 4503599627370496 = m / 4503599627370496 + 1 ∧
        (m + 1) % 4503599627370496 = 0 ∧ m % 4503599627370496 = 4503599627370495) := by
    omega
  rcases hcarry with ⟨hquot, hrem⟩ | ⟨hquot, hrem, hfull⟩
  · rw [hquot, hrem]
    split
    · omega
    · exact Nat.mul_lt_mul_of_pos_right (by omega) (Nat.two_pow_pos _)
  · rw [hquot, hrem, hfull]
    split
    · rename_i hzero
      obtain rfl : m = 4503599627370495 := by omega
      decide
    · rename_i hpos
      obtain ⟨e, he⟩ := Nat.exists_eq_succ_of_ne_zero hpos
      have htwo := Nat.two_pow_pos e
      rw [he, if_neg (by omega)]
      simp only [Nat.succ_eq_add_one, Nat.add_sub_cancel, pow_succ]
      omega

theorem steps_strictMono : StrictMono steps := strictMono_nat_of_lt_succ steps_lt_succ

/-- The number of steps with the sign of a rank. -/
def signedSteps (rank : Int) : Int := rank.sign * steps rank.natAbs

theorem signedSteps_natCast (n : Nat) : signedSteps n = steps n := by
  cases n with
  | zero => rfl
  | succ n =>
      rw [signedSteps, Int.sign_natCast_of_ne_zero (Nat.succ_ne_zero n), Int.natAbs_natCast,
        one_mul]

theorem signedSteps_neg (r : Int) : signedSteps (-r) = -signedSteps r := by
  simp [signedSteps]

/-- With signs, a larger rank has more steps as well. -/
theorem signedSteps_lt {r s : Int} (hlt : r < s) : signedSteps r < signedSteps s := by
  obtain ⟨m, rfl | rfl⟩ := Int.eq_nat_or_neg r <;> obtain ⟨n, rfl | rfl⟩ := Int.eq_nat_or_neg s <;>
    simp only [signedSteps_neg, signedSteps_natCast]
  · have hsteps : steps m < steps n := steps_strictMono (by omega)
    omega
  · omega
  · have hone : steps 0 = 0 := rfl
    rcases Nat.eq_zero_or_pos m with rfl | hm
    · have hsteps : steps 0 < steps n := steps_strictMono (by omega)
      omega
    · have hsteps : steps 0 < steps m := steps_strictMono hm
      omega
  · have hsteps : steps n < steps m := steps_strictMono (by omega)
    omega

/-- The least positive double. -/
def leastStep : ℚ := (2 : ℚ) ^ (-1074 : ℤ)

theorem leastStep_pos : 0 < leastStep := zpow_pos two_pos _

/-- A finite double is so many steps of the least positive one. -/
theorem toRat_eq_signedSteps (x : Double) : x.toRat = signedSteps x.rank * leastStep := by
  have hsteps : (x.significand : ℚ) * (2 : ℚ) ^ x.exponent = steps x.magnitude * leastStep := by
    unfold significand exponent steps exponentField
    split
    · rfl
    · rename_i hpos
      obtain ⟨e, he⟩ := Nat.exists_eq_succ_of_ne_zero hpos
      have hpower : ((e + 1 : ℕ) : ℤ) - 1075 = (e : ℤ) + (-1074) := by omega
      rw [he, Nat.succ_eq_add_one, hpower, zpow_add₀ two_ne_zero, zpow_natCast,
        Nat.add_sub_cancel, ← mul_assoc, Nat.cast_mul, Nat.cast_pow, Nat.cast_two]
      rfl
  unfold toRat rank
  rw [mul_assoc, hsteps]
  split
  · rw [signedSteps_neg, signedSteps_natCast]
    push_cast
    ring
  · rw [signedSteps_natCast]
    push_cast
    ring

/-! ### The order by number

Ranks and numbers ascend together, from one infinity to the other, so that comparing ranks is
comparing numbers. -/

/-- The number at a place of the order, infinite at both ends. -/
def numberAt (rank : Int) : WithBot (WithTop ℚ) :=
  if rank ≤ -(infinityMagnitude : Int) then ⊥
  else if (infinityMagnitude : Int) ≤ rank then ((⊤ : WithTop ℚ) : WithBot (WithTop ℚ))
  else ((signedSteps rank * leastStep : ℚ) : WithTop ℚ)

/-- Between the infinities, numbers ascend with their ranks. -/
theorem numberAt_lt {r s : Int} (hlow : -(infinityMagnitude : Int) ≤ r)
    (hhigh : s ≤ infinityMagnitude) (hlt : r < s) : numberAt r < numberAt s := by
  have hs_not_bot : ¬ s ≤ -(infinityMagnitude : Int) := by omega
  have hr_not_top : ¬ (infinityMagnitude : Int) ≤ r := by omega
  simp only [numberAt, if_neg hs_not_bot, if_neg hr_not_top]
  split
  · split <;> exact WithBot.bot_lt_coe _
  · split
    · exact WithBot.coe_lt_coe.2 (WithTop.coe_lt_top _)
    · have hsteps : (signedSteps r : ℚ) < signedSteps s := by
        exact_mod_cast signedSteps_lt hlt
      exact WithBot.coe_lt_coe.2
        (WithTop.coe_lt_coe.2 (mul_lt_mul_of_pos_right hsteps leastStep_pos))

/-- Unless it is a NaN, a double lies between the infinities. -/
theorem rank_bounds {x : Double} (h : x.isNaN = false) :
    -(infinityMagnitude : Int) ≤ x.rank ∧ x.rank ≤ infinityMagnitude := by
  have hmagnitude : x.magnitude ≤ infinityMagnitude := by simpa [isNaN] using h
  unfold rank
  split <;> omega

/-- A double that is no NaN denotes the number at its rank. -/
theorem number?_eq_numberAt {x : Double} (h : x.isNaN = false) :
    x.number? = some (numberAt x.rank) := by
  have hmagnitude : x.magnitude ≤ infinityMagnitude := by simpa [isNaN] using h
  have hinfinity : 0 < infinityMagnitude := by decide
  unfold number? numberAt
  simp only [h, Bool.false_eq_true, if_false]
  split
  · rename_i hinfinite
    have heq : x.magnitude = infinityMagnitude := by simpa [isInfinite] using hinfinite
    unfold rank
    split
    · rw [if_pos (by omega)]
    · rw [if_neg (by omega), if_pos (by omega)]
  · rename_i hinfinite
    have hne : x.magnitude ≠ infinityMagnitude := by simpa [isInfinite] using hinfinite
    have hrank : -(infinityMagnitude : Int) < x.rank ∧ x.rank < infinityMagnitude := by
      unfold rank
      split <;> omega
    rw [if_neg (by omega), if_neg (by omega), toRat_eq_signedSteps]

/-- Numbers compare as their patterns do. -/
theorem numericOrder?_eq_order {x y : Double} (hx : x.isNaN = false) (hy : y.isNaN = false) :
    x.numericOrder? y = some (x.order y) := by
  obtain ⟨hxlow, hxhigh⟩ := rank_bounds hx
  obtain ⟨hylow, hyhigh⟩ := rank_bounds hy
  have hcompare : compare (numberAt x.rank) (numberAt y.rank) = compare x.rank y.rank := by
    rcases lt_trichotomy x.rank y.rank with hlt | heq | hgt
    · rw [compare_lt_iff_lt.2 hlt, compare_lt_iff_lt.2 (numberAt_lt hxlow hyhigh hlt)]
    · rw [heq, compare_eq_iff_eq.2 rfl, compare_eq_iff_eq.2 rfl]
    · rw [compare_gt_iff_gt.2 hgt, compare_gt_iff_gt.2 (numberAt_lt hylow hxhigh hgt)]
  simp [numericOrder?, number?_eq_numberAt hx, number?_eq_numberAt hy, hcompare, order]

/-! ### The lesser of two

The lesser of two doubles is chosen by a test on patterns. Read as numbers, the test is the strict
order, so that the choice is one of the two operands and is above neither. A NaN gives way to the
other operand. -/

/-- The test holds of two doubles that both denote numbers, the first less than the second. -/
theorem lt_iff {x y : Double} :
    x.lt y ↔ ∃ m n, x.number? = some m ∧ y.number? = some n ∧ m < n := by
  cases hx : x.isNaN with
  | true => simp [lt, number?, hx]
  | false =>
      cases hy : y.isNaN with
      | true => simp [lt, number?, hy]
      | false =>
          obtain ⟨hxlow, hxhigh⟩ := rank_bounds hx
          obtain ⟨hylow, hyhigh⟩ := rank_bounds hy
          simp only [lt, hx, hy, Bool.not_false, Bool.true_and, decide_eq_true_iff,
            number?_eq_numberAt hx, number?_eq_numberAt hy, Option.some.injEq, exists_and_left,
            exists_eq_left']
          refine ⟨numberAt_lt hxlow hyhigh, fun hlt => ?_⟩
          by_contra hle
          rcases (not_lt.1 hle).lt_or_eq with hgt | heq
          · exact lt_asymm hlt (numberAt_lt hylow hxhigh hgt)
          · exact lt_irrefl _ (heq ▸ hlt)

theorem min_eq_or (x y : Double) : x.min y = x ∨ x.min y = y := by
  unfold min
  split
  · exact .inr rfl
  · split
    · exact .inr rfl
    · exact .inl rfl

theorem min_le_left {x y : Double} {m : WithBot (WithTop ℚ)} (hx : x.number? = some m) :
    ∃ least, (x.min y).number? = some least ∧ least ≤ m := by
  have hnan : ¬ x.isNaN := by
    intro hnan
    simp [number?, hnan] at hx
  rw [min, if_neg hnan]
  split
  · rename_i hless
    obtain ⟨n, m', hy, hx', hlt⟩ := lt_iff.1 hless
    cases hx.symm.trans hx'
    exact ⟨n, hy, hlt.le⟩
  · exact ⟨m, hx, le_rfl⟩

theorem min_le_right {x y : Double} {n : WithBot (WithTop ℚ)} (hy : y.number? = some n) :
    ∃ least, (x.min y).number? = some least ∧ least ≤ n := by
  rw [min]
  split
  · exact ⟨n, hy, le_rfl⟩
  · rename_i hnan
    split
    · exact ⟨n, hy, le_rfl⟩
    · rename_i hless
      have hx := number?_eq_numberAt (Bool.eq_false_iff.2 hnan)
      refine ⟨_, hx, not_lt.1 fun hlt => hless ?_⟩
      exact lt_iff.2 ⟨n, _, hy, hx, hlt⟩

/-- The lesser of two doubles is one of them. If either denotes a number, so does it, and its number
    is above neither. -/
theorem min_spec (x y : Double) :
    (x.min y = x ∨ x.min y = y) ∧
      ∀ n, x.number? = some n ∨ y.number? = some n →
        ∃ least, (x.min y).number? = some least ∧ least ≤ n := by
  refine ⟨min_eq_or x y, ?_⟩
  rintro n (hx | hy)
  · exact min_le_left hx
  · exact min_le_right hy

/-! ### The total order of patterns

Ranks identify the two zeros and no other two patterns. Where a NaN takes part the comparison by
rank is that of the total order. -/

/-- Unless both are zeros, patterns compare as the total order has it. -/
theorem order_eq_totalOrder {x y : Double} (h : x.magnitude ≠ 0 ∨ y.magnitude ≠ 0) :
    x.order y = x.totalOrder y := by
  have hranks : (x.rank < y.rank ↔ x.totalRank < y.totalRank) ∧
      (y.rank < x.rank ↔ y.totalRank < x.totalRank) := by
    unfold rank totalRank
    split <;> split <;> omega
  unfold order totalOrder
  rcases lt_trichotomy x.rank y.rank with hlt | heq | hgt
  · rw [compare_lt_iff_lt.2 hlt, compare_lt_iff_lt.2 (hranks.1.1 hlt)]
  · have heq' : x.totalRank = y.totalRank := by omega
    rw [compare_eq_iff_eq.2 heq, compare_eq_iff_eq.2 heq']
  · rw [compare_gt_iff_gt.2 hgt, compare_gt_iff_gt.2 (hranks.2.1 hgt)]

/-- Two doubles cannot be compared as numbers exactly if one is a NaN. -/
theorem numericOrder?_eq_none_iff {x y : Double} :
    x.numericOrder? y = none ↔ x.isNaN ∨ y.isNaN := by
  cases hx : x.isNaN with
  | true => simp [numericOrder?, number?, hx]
  | false =>
      cases hy : y.isNaN with
      | true => simp [numericOrder?, number?, hy]
      | false => simp [numericOrder?_eq_order hx hy]

theorem magnitude_ne_zero_of_isNaN {x : Double} (h : x.isNaN) : x.magnitude ≠ 0 := by
  have hmagnitude : infinityMagnitude < x.magnitude := by simpa [isNaN] using h
  omega

/-- Patterns compare by the numbers they denote, and by the total order of patterns where one of
    them denotes none. -/
theorem order_eq_numeric_or_total (x y : Double) :
    x.order y = (x.numericOrder? y).getD (x.totalOrder y) := by
  cases hx : x.isNaN with
  | true =>
      rw [numericOrder?_eq_none_iff.2 (Or.inl hx), Option.getD_none]
      exact order_eq_totalOrder (Or.inl (magnitude_ne_zero_of_isNaN hx))
  | false =>
      cases hy : y.isNaN with
      | true =>
          rw [numericOrder?_eq_none_iff.2 (Or.inr hy), Option.getD_none]
          exact order_eq_totalOrder (Or.inr (magnitude_ne_zero_of_isNaN hy))
      | false => rw [numericOrder?_eq_order hx hy, Option.getD_some]

/-! ### Doubles that the order does not tell apart

Put together, the two orders say when patterns compare equal: as the two zeros, as the same number,
or as NaNs in one place of the total order. -/

/-- Both are zeros, or both denote the same number, or both are NaNs in one place of the total order
    of patterns. -/
inductive Same : Double → Double → Prop where
  | zeros {x y : Double} (hx : x.magnitude = 0) (hy : y.magnitude = 0) : Same x y
  | number {x y : Double} {n : WithBot (WithTop ℚ)} (hx : x.number? = some n)
      (hy : y.number? = some n) : Same x y
  | nan {x y : Double} (hx : x.isNaN) (hy : y.isNaN) (h : x.totalOrder y = .eq) : Same x y

/-- A NaN compares equal to NaNs only. -/
theorem isNaN_eq_of_order_eq {x y : Double} (h : x.order y = .eq) : x.isNaN = y.isNaN := by
  have hrank : x.rank = y.rank := compare_eq_iff_eq.1 h
  have hmagnitude : x.magnitude = y.magnitude := by
    unfold rank at hrank
    split at hrank <;> split at hrank <;> omega
  rw [isNaN, isNaN, hmagnitude]

/-- The order does not tell apart exactly the doubles that are the same. -/
theorem order_eq_iff_same {x y : Double} : x.order y = .eq ↔ Same x y := by
  constructor
  · intro h
    have hnan := isNaN_eq_of_order_eq h
    have hsplit := order_eq_numeric_or_total x y
    cases hx : x.isNaN with
    | true =>
        rw [numericOrder?_eq_none_iff.2 (Or.inl hx), Option.getD_none, h] at hsplit
        exact .nan hx (hnan ▸ hx) hsplit.symm
    | false =>
        have hy : y.isNaN = false := hnan ▸ hx
        have hrank : x.rank = y.rank := compare_eq_iff_eq.1 h
        exact .number (number?_eq_numberAt hx) (hrank ▸ number?_eq_numberAt hy)
  · intro h
    rw [order_eq_numeric_or_total]
    cases h with
    | zeros hx hy =>
        have hx' : x.isNaN = false := by simp [isNaN, hx]
        have hy' : y.isNaN = false := by simp [isNaN, hy]
        rw [numericOrder?_eq_order hx' hy', Option.getD_some]
        exact compare_eq_iff_eq.2 (by simp [rank, hx, hy])
    | number hx hy => simp [numericOrder?, hx, hy]
    | nan hx hy htotal => rwa [numericOrder?_eq_none_iff.2 (Or.inl hx), Option.getD_none]

end Double

end ClauseEngine
