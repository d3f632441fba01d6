/-
Module: ClauseEngine.Proofs.Primitive.Division
Purpose: Division of whole numbers. The quotient is rounded down and the remainder belongs to the
  quotient rounded towards zero. The two roundings differ by one step, exactly where the divisor does
  not divide and the signs are opposite, and the step never leaves the range of the language; so the
  pair gives the dividend back everywhere else and nowhere there. The operators compute with words,
  which divide towards zero, and step the quotient down by a test of signs; that this is rounding down
  is proved from what the words stand for.
Main exports: Integer.truncate, Integer.floor_div, Integer.truncate_div, Integer.fdiv_eq_tdiv_or_pred,
  Integer.fits_tdiv_iff, Integer.fits_fdiv_iff, Integer.toInt_div, Integer.steps_down_iff,
  Integer.toInt_stepped_quotient, Whole.DividesTo, Whole.quotient_dividesTo,
  Whole.remainder_dividesTo, Whole.division_exact
-/
import ClauseEngine.Primitive.Whole
import ClauseEngine.Proofs.Result
import Mathlib.Data.Rat.Floor
import Mathlib.Tactic.NormNum

namespace ClauseEngine

namespace Integer

/-! ### Two roundings of a quotient

Rounding down and rounding towards zero are stated for rational numbers and related to the two
divisions of integers. They agree on quotients that are not negative, and below zero they differ by
one step unless the quotient is exact. -/

/-- A rational number rounded towards zero. -/
def truncate (q : ℚ) : Int := if 0 ≤ q then ⌊q⌋ else ⌈q⌉

/-- The quotient of integers rounded down. -/
theorem floor_div (a b : Int) : ⌊(a : ℚ) / b⌋ = a.fdiv b := by
  rcases Int.le_total 0 b with hb | hb
  · lift b to Nat using hb
    rw [Int.fdiv_eq_ediv_of_nonneg _ (Int.natCast_nonneg b)]
    exact Rat.floor_intCast_div_natCast a b
  · -- Both signs are turned, so that the divisor is a natural number again.
    obtain ⟨n, hn⟩ := Int.eq_ofNat_of_zero_le (Int.neg_nonneg_of_nonpos hb)
    have hturned : (a : ℚ) / b = ((-a : Int) : ℚ) / (n : Nat) := by
      rw [← Int.cast_natCast n, ← hn, Int.cast_neg, Int.cast_neg, neg_div_neg_eq]
    rw [hturned, Rat.floor_intCast_div_natCast, ← Int.neg_fdiv_neg, hn,
      Int.fdiv_eq_ediv_of_nonneg _ (Int.natCast_nonneg n)]

/-- A quotient that is not negative is rounded down by rounding it towards zero. -/
theorem floor_div_of_nonneg {a b : Int} (h : 0 ≤ (a : ℚ) / b) : ⌊(a : ℚ) / b⌋ = a.tdiv b := by
  rw [floor_div]
  rcases div_nonneg_iff.1 h with ⟨ha, hb⟩ | ⟨ha, hb⟩
  · exact Int.fdiv_eq_tdiv_of_nonneg (Int.cast_nonneg_iff.1 ha) (Int.cast_nonneg_iff.1 hb)
  · rw [← Int.neg_fdiv_neg, ← Int.neg_tdiv_neg]
    apply Int.fdiv_eq_tdiv_of_nonneg
    · exact Int.neg_nonneg_of_nonpos (Int.cast_nonpos.1 ha)
    · exact Int.neg_nonneg_of_nonpos (Int.cast_nonpos.1 hb)

/-- The quotient of integers rounded towards zero. -/
theorem truncate_div (a b : Int) : truncate ((a : ℚ) / b) = a.tdiv b := by
  by_cases h : 0 ≤ (a : ℚ) / b
  · rw [truncate, if_pos h, floor_div_of_nonneg h]
  · have hopposite : 0 ≤ ((-a : Int) : ℚ) / b := by
      rw [Int.cast_neg, neg_div]
      exact neg_nonneg.2 (not_le.1 h).le
    calc truncate ((a : ℚ) / b)
        = ⌈(a : ℚ) / b⌉ := by rw [truncate, if_neg h]
      _ = -⌊((-a : Int) : ℚ) / b⌋ := by rw [Int.cast_neg, neg_div, Int.floor_neg, Int.neg_neg]
      _ = -(-a).tdiv b := by rw [floor_div_of_nonneg hopposite]
      _ = a.tdiv b := by rw [Int.neg_tdiv, Int.neg_neg]

/-- Rounded down, a quotient is the one rounded towards zero or the number below it. -/
theorem fdiv_eq_tdiv_or_pred {a b : Int} (hb : b ≠ 0) :
    a.fdiv b = if b ∣ a ∨ a.sign = b.sign then a.tdiv b else a.tdiv b - 1 := by
  rw [Int.fdiv_eq_tdiv]
  by_cases hdvd : b ∣ a
  · simp [hdvd]
  · have ha : a ≠ 0 := by
      rintro rfl
      exact hdvd (Int.dvd_zero b)
    rcases Int.lt_or_gt_of_ne ha with ha | ha <;> rcases Int.lt_or_gt_of_ne hb with hb | hb
    · simp [hdvd, Int.sign_eq_neg_one_of_neg ha, Int.sign_eq_neg_one_of_neg hb, ha.not_ge, hb.not_ge]
    · simp [hdvd, Int.sign_eq_neg_one_of_neg ha, Int.sign_eq_one_of_pos hb, ha.not_ge, hb.le]
    · simp [hdvd, Int.sign_eq_one_of_pos ha, Int.sign_eq_neg_one_of_neg hb, ha.le, hb.not_ge]
    · simp [hdvd, Int.sign_eq_one_of_pos ha, Int.sign_eq_one_of_pos hb, ha.le, hb.le]

/-- The quotient and the remainder give the dividend back exactly where both roundings agree. -/
theorem fdiv_mul_add_tmod_eq_iff {a b : Int} (hb : b ≠ 0) :
    a.fdiv b * b + a.tmod b = a ↔ b ∣ a ∨ a.sign = b.sign := by
  have htruncated : a.tdiv b * b + a.tmod b = a := by
    rw [Int.tmod_def, Int.mul_comm]
    omega
  rw [fdiv_eq_tdiv_or_pred hb]
  split
  · rename_i hsame
    exact iff_of_true htruncated hsame
  · rename_i hstep
    rw [Int.sub_mul, Int.one_mul]
    refine iff_of_false ?_ hstep
    omega

/-! ### Quotients that fit

A quotient is no further from zero than its dividend, so that only the least number has one that does
not fit, by minus one. Where rounding down takes a step, the divisor is neither 1 nor -1 and the
quotient is small enough to leave room for it. -/

/-- By a divisor other than 1 and -1, a quotient is at most half of the dividend. -/
theorem natAbs_tdiv_le (x : Int) {y : Int} (hy : 2 ≤ y.natAbs) : (x.tdiv y).natAbs ≤ x.natAbs / 2 := by
  rw [Int.natAbs_tdiv]
  exact Nat.div_le_div_left hy (by decide)

/-- There is one quotient that does not fit: that of the least number by minus one. -/
theorem fits_tdiv_iff {x y : Int} (hx : Fits x) (hy : y ≠ 0) :
    Fits (x.tdiv y) ↔ ¬ (x = minInt ∧ y = -1) := by
  unfold Fits minInt maxInt at *
  by_cases hunit : y.natAbs = 1
  · obtain rfl | rfl : y = 1 ∨ y = -1 := by omega
    · rw [Int.tdiv_one]
      omega
    · rw [Int.tdiv_neg, Int.tdiv_one]
      omega
  · have hhalf := natAbs_tdiv_le x (y := y) (by omega)
    omega

/-- The number below a quotient fits as well. Where it is needed, the divisor does not divide, so it
    is neither 1 nor -1. -/
theorem fits_fdiv_iff {x y : Int} (hx : Fits x) (hy : y ≠ 0) :
    Fits (x.fdiv y) ↔ ¬ (x = minInt ∧ y = -1) := by
  rw [fdiv_eq_tdiv_or_pred hy]
  split
  · exact fits_tdiv_iff hx hy
  · rename_i hstep
    have hdvd : ¬ y ∣ x := fun h => hstep (.inl h)
    have hunit : y.natAbs ≠ 1 := fun h => hdvd (Int.natAbs_dvd_natAbs.1 (h ▸ Nat.one_dvd _))
    have hhalf := natAbs_tdiv_le x (y := y) (by omega)
    unfold Fits minInt maxInt at *
    omega

/-- A remainder is less than the divisor. -/
theorem natAbs_tmod_lt (x : Int) {y : Int} (hy : y ≠ 0) : (x.tmod y).natAbs < y.natAbs := by
  rw [Int.natAbs_tmod]
  exact Nat.mod_lt _ (Int.natAbs_pos.2 hy)

/-- A remainder is zero or has the sign of the dividend. -/
theorem sign_tmod_eq (x y : Int) : x.tmod y = 0 ∨ (x.tmod y).sign = x.sign := by
  rw [Int.sign_tmod]
  split
  · rename_i hdvd
    exact .inl (Int.tmod_eq_zero_of_dvd hdvd)
  · exact .inr rfl

/-- Two numbers other than zero have one sign exactly if both or neither of them is negative. -/
theorem sign_eq_sign_iff {a b : Int} (ha : a ≠ 0) (hb : b ≠ 0) :
    a.sign = b.sign ↔ (a < 0 ↔ b < 0) := by
  rcases Int.lt_or_gt_of_ne ha with ha | ha <;> rcases Int.lt_or_gt_of_ne hb with hb | hb
  · simp [Int.sign_eq_neg_one_of_neg ha, Int.sign_eq_neg_one_of_neg hb, ha, hb]
  · simp [Int.sign_eq_neg_one_of_neg ha, Int.sign_eq_one_of_pos hb, ha, hb.le]
  · simp [Int.sign_eq_one_of_pos ha, Int.sign_eq_neg_one_of_neg hb, ha.le, hb]
  · simp [Int.sign_eq_one_of_pos ha, Int.sign_eq_one_of_pos hb, ha.not_gt, hb.not_gt]

/-! ### Division of words

The operators divide words, and a word quotient is the exact one unless the least word is divided by
-1. The step down tests a word remainder and two signs; read as integers, that test says that the two
roundings differ, and the number below the quotient still fits, so the step does not wrap. -/

section Words

variable {x y : Int64}

theorem toInt_eq_minInt_iff : x.toInt = minInt ↔ x = Int64.minValue :=
  Int64.toInt_inj (y := Int64.minValue)

theorem toInt_eq_neg_one_iff : y.toInt = -1 ↔ y = -1 := Int64.toInt_inj (y := -1)

/-- The word test for a quotient is the exact condition for it to fit. -/
theorem hasQuotient_iff (hy : y.toInt ≠ 0) :
    HasQuotient x y ↔ ¬ (x.toInt = minInt ∧ y.toInt = -1) := by
  rw [toInt_eq_minInt_iff, toInt_eq_neg_one_iff, HasQuotient]
  refine and_iff_right ?_
  rintro rfl
  exact hy rfl

/-- Where there is a quotient, the word is the exact one rounded towards zero. -/
theorem toInt_div (h : HasQuotient x y) : (x / y).toInt = x.toInt.tdiv y.toInt := by
  by_cases hleast : x = Int64.minValue
  · exact Int64.toInt_div_of_ne_right x y fun hunit => h.2 ⟨hleast, hunit⟩
  · exact Int64.toInt_div_of_ne_left x y hleast

/-- The test of the step down: the word remainder is not zero and one sign alone is negative. -/
theorem steps_down_iff (hy : y.toInt ≠ 0) :
    (x % y != 0 && (decide (x < 0) != decide (y < 0))) = true ↔
      ¬ (y.toInt ∣ x.toInt ∨ x.toInt.sign = y.toInt.sign) := by
  have hdvd : x % y = 0 ↔ y.toInt ∣ x.toInt := by
    rw [← Int64.toInt_inj, Int64.toInt_mod, Int.dvd_iff_tmod_eq_zero]
    rfl
  rw [not_or, Bool.and_eq_true, bne_iff_ne, bne_iff_ne, ne_eq, hdvd]
  refine and_congr_right fun hrest => not_congr ?_
  have hx : x.toInt ≠ 0 := by
    intro hx
    exact hrest (hx ▸ Int.dvd_zero _)
  rw [decide_eq_decide, Int64.lt_iff_toInt_lt, Int64.lt_iff_toInt_lt]
  exact (sign_eq_sign_iff hx hy).symm

/-- A difference that fits is not wrapped. -/
theorem toInt_sub_of_fits (h : Fits (x.toInt - y.toInt)) : (x - y).toInt = x.toInt - y.toInt := by
  rw [Int64.toInt_sub]
  unfold Fits minInt maxInt at h
  exact Int.bmod_eq_of_le (by omega) (by omega)

/-- The quotient of words, stepped down by the test, is the exact quotient rounded down. -/
theorem toInt_stepped_quotient (h : HasQuotient x y) :
    (if x % y != 0 && (decide (x < 0) != decide (y < 0)) then x / y - 1 else x / y).toInt =
      x.toInt.fdiv y.toInt := by
  have hy : y.toInt ≠ 0 := fun hzero => h.1 (Int64.toInt_inj.1 hzero)
  have hfits : Fits (x.toInt.fdiv y.toInt) :=
    (fits_fdiv_iff (fits_toInt x) hy).2 ((hasQuotient_iff hy).1 h)
  rw [fdiv_eq_tdiv_or_pred hy] at hfits ⊢
  by_cases hsame : y.toInt ∣ x.toInt ∨ x.toInt.sign = y.toInt.sign
  · rw [if_neg fun hstep => (steps_down_iff hy).1 hstep hsame, if_pos hsame]
    exact toInt_div h
  · rw [if_neg hsame, ← toInt_div h] at hfits ⊢
    rw [if_pos ((steps_down_iff hy).2 hsame)]
    exact toInt_sub_of_fits hfits

end Words

end Integer

open Integer

namespace Whole

/-! ### The operators

Both operators fail alike, on a divisor of zero and on the one quotient that does not fit. They are
described by one structure that leaves open what the number is. -/

/-- How a division ends: by zero with an error of its own, for the least number by -1 with an
    overflow, and otherwise with a number that has a property. -/
structure DividesTo (x y : Int64) (Q : Int → Prop) (r : Result Value) : Prop where
  divisionByZero_iff : (∃ operator, r = .error (.divisionByZero operator)) ↔ y.toInt = 0
  overflow_iff : (∃ error, r = .error (.overflow error)) ↔ x.toInt = minInt ∧ y.toInt = -1
  success : y.toInt ≠ 0 → ¬ (x.toInt = minInt ∧ y.toInt = -1) →
    ∃ n : Int64, r = .ok (.nat n) ∧ Q n.toInt

namespace DividesTo

variable {x y : Int64} {Q : Int → Prop} {r : Result Value}

/-- Both operators have this form: they test the divisor, then whether there is a quotient of words,
    and make a number of the word that they compute. -/
theorem of_word {n : Int64} {f : Int64 → Result Value} (operator : String) (error : Overflow)
    (h : HasQuotient x y → ∃ m : Int64, f n = .ok (.nat m) ∧ Q m.toInt) :
    DividesTo x y Q
      (if y = 0 then .error (.divisionByZero operator)
        else orOverflow (if HasQuotient x y then some n else none) error >>= f) := by
  by_cases hy : y = 0
  · rw [if_pos hy]
    constructor <;> simp [hy]
  · rw [if_neg hy]
    have hzero : y.toInt ≠ 0 := fun hzero => hy (Int64.toInt_inj.1 hzero)
    have hleast := hasQuotient_iff (x := x) hzero
    by_cases hquotient : HasQuotient x y
    · obtain ⟨m, hm, hQ⟩ := h hquotient
      rw [if_pos hquotient, orOverflow, ok_bind, hm]
      constructor <;> simp [hzero, hleast.1 hquotient, hQ]
    · have hleast := not_not.1 (mt hleast.2 hquotient)
      rw [if_neg hquotient]
      show DividesTo x y Q (.error (.overflow error))
      constructor <;> simp [hleast]

theorem mono {R : Int → Prop} (h : DividesTo x y Q r)
    (himp : ∀ n, y.toInt ≠ 0 → ¬ (x.toInt = minInt ∧ y.toInt = -1) → Q n → R n) :
    DividesTo x y R r where
  divisionByZero_iff := h.divisionByZero_iff
  overflow_iff := h.overflow_iff
  success hy hleast := by
    obtain ⟨n, hr, hn⟩ := h.success hy hleast
    exact ⟨n, hr, himp _ hy hleast hn⟩

/-- A number that is returned belongs to a divisor other than zero. -/
theorem of_ok {n : Int64} (h : DividesTo x y Q r) (hr : r = .ok (.nat n)) :
    y.toInt ≠ 0 ∧ Q n.toInt := by
  have hzero : y.toInt ≠ 0 := by
    intro hy
    obtain ⟨operator, herror⟩ := h.divisionByZero_iff.2 hy
    cases hr.symm.trans herror
  have hleast : ¬ (x.toInt = minInt ∧ y.toInt = -1) := by
    intro hleast
    obtain ⟨error, herror⟩ := h.overflow_iff.2 hleast
    cases hr.symm.trans herror
  obtain ⟨m, hm, hQ⟩ := h.success hzero hleast
  cases hr.symm.trans hm
  exact ⟨hzero, hQ⟩

end DividesTo

variable (x y : Int64)

/-- The quotient of two numbers in steps on words: it is rounded towards zero and stepped down where
    the signs differ and the divisor does not divide. -/
theorem quotient_nat :
    quotient (.nat x) (.nat y) =
      if y = 0 then .error (.divisionByZero "nat_div")
      else orOverflow (div? x y) (.binary "nat_div" x y) >>= fun q =>
        .ok (.nat (if x % y != 0 && (decide (x < 0) != decide (y < 0)) then q - 1 else q)) := by
  show (if y = 0 then throw _ else _) = _
  split
  · rfl
  · show (orOverflow _ _ >>= _) = _
    congr 1
    funext q
    split <;> rfl

/-- The remainder of two numbers in steps on words. -/
theorem remainder_nat :
    remainder (.nat x) (.nat y) =
      if y = 0 then .error (.divisionByZero "nat_rem")
      else orOverflow (rem? x y) (.binary "nat_rem" x y) >>= fun r => .ok (.nat r) := by
  show (if y = 0 then throw _ else _) = _
  split <;> rfl

/-- The steps on words amount to rounding down. -/
theorem quotient_dividesTo :
    DividesTo x y (· = x.toInt.fdiv y.toInt) (quotient (.nat x) (.nat y)) := by
  rw [quotient_nat, div?]
  apply DividesTo.of_word
  intro hquotient
  exact ⟨_, rfl, toInt_stepped_quotient hquotient⟩

/-- The remainder belongs to the quotient rounded towards zero. -/
theorem remainder_dividesTo :
    DividesTo x y (· = x.toInt.tmod y.toInt) (remainder (.nat x) (.nat y)) := by
  rw [remainder_nat, rem?]
  apply DividesTo.of_word
  intro _
  exact ⟨_, rfl, Int64.toInt_mod x y⟩

/-- Division of any two numbers. Quotient and remainder fail together: by zero, and for the least
    number by -1. Otherwise the quotient is the floor of the exact one; the quotient rounded towards
    zero is a number of the language too, and so is the one below it where that is the floor. The
    remainder is what the quotient rounded towards zero leaves, is less than the divisor, and is zero
    or has the sign of the dividend. The two give the dividend back exactly if the divisor divides it
    or has its sign. -/
theorem division_exact (x y : Int64) :
    DividesTo x y
      (fun q => q = ⌊(x.toInt : ℚ) / y.toInt⌋ ∧
        ∃ truncated : Int64, truncated.toInt = truncate ((x.toInt : ℚ) / y.toInt) ∧
          q = if y.toInt ∣ x.toInt ∨ x.toInt.sign = y.toInt.sign then truncated.toInt
            else truncated.toInt - 1)
      (quotient (.nat x) (.nat y)) ∧
    DividesTo x y
      (fun r => r = x.toInt - y.toInt * truncate ((x.toInt : ℚ) / y.toInt) ∧
        r.natAbs < y.toInt.natAbs ∧ (r = 0 ∨ r.sign = x.toInt.sign))
      (remainder (.nat x) (.nat y)) ∧
    ∀ q r : Int64, quotient (.nat x) (.nat y) = .ok (.nat q) →
      remainder (.nat x) (.nat y) = .ok (.nat r) →
        (q.toInt * y.toInt + r.toInt = x.toInt ↔
          y.toInt ∣ x.toInt ∨ x.toInt.sign = y.toInt.sign) := by
  rw [floor_div, truncate_div]
  refine ⟨(quotient_dividesTo x y).mono ?_, (remainder_dividesTo x y).mono ?_, ?_⟩
  · rintro _ hy hleast rfl
    have htruncated := toInt_div ((hasQuotient_iff hy).2 hleast)
    refine ⟨rfl, x / y, htruncated, ?_⟩
    rw [htruncated]
    exact fdiv_eq_tdiv_or_pred hy
  · rintro _ hy - rfl
    exact ⟨Int.tmod_def _ _, natAbs_tmod_lt _ hy, sign_tmod_eq _ _⟩
  · intro q r hq hr
    obtain ⟨hy, hquotient⟩ := (quotient_dividesTo x y).of_ok hq
    obtain ⟨-, hremainder⟩ := (remainder_dividesTo x y).of_ok hr
    rw [hquotient, hremainder]
    exact fdiv_mul_add_tmod_eq_iff hy

/-- By 2, the number -7 has a quotient and a remainder that do not give it back; by -2 they do. -/
theorem division_exact_of_odd :
    (∃ q r : Int64, quotient (.nat (-7)) (.nat 2) = .ok (.nat q) ∧
        remainder (.nat (-7)) (.nat 2) = .ok (.nat r) ∧ q.toInt * 2 + r.toInt ≠ -7) ∧
      ∃ q r : Int64, quotient (.nat (-7)) (.nat (-2)) = .ok (.nat q) ∧
        remainder (.nat (-7)) (.nat (-2)) = .ok (.nat r) ∧ q.toInt * -2 + r.toInt = -7 := by
  obtain ⟨hquotient, hremainder, hback⟩ := division_exact (-7) 2
  obtain ⟨q, hq, -⟩ := hquotient.success (by decide) (by decide)
  obtain ⟨r, hr, -⟩ := hremainder.success (by decide) (by decide)
  obtain ⟨hquotient', hremainder', hback'⟩ := division_exact (-7) (-2)
  obtain ⟨q', hq', -⟩ := hquotient'.success (by decide) (by decide)
  obtain ⟨r', hr', -⟩ := hremainder'.success (by decide) (by decide)
  refine ⟨⟨q, r, hq, hr, fun h => ?_⟩, q', r', hq', hr', (hback' q' r' hq' hr').2 (.inr (by decide))⟩
  exact absurd ((hback q r hq hr).1 h) (by decide)

end Whole

end ClauseEngine
