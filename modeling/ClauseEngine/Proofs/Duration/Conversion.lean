/-
Module: ClauseEngine.Proofs.Duration.Conversion
Purpose: Conversion between units is exact rounding down. Every coarser unit is a multiple of every
  finer one, so a conversion is a product or a quotient by a whole ratio and loses at most what a
  coarser unit cannot express. Conversions in one direction compose; one to a finer unit is undone by
  the way back, and the way back from a coarser unit leaves a multiple of the ratio.
Main exports: TemporalUnit.length_dvd_of_le, TemporalUnit.InOneDirection, Duration.convertAmount_exact,
  Duration.convertAmount_eq_ok_iff, Duration.fits_of_coarser, Duration.convertAmount_compose,
  Duration.convertAmount_finer_and_back, Duration.convertAmount_coarser_and_back,
  Duration.conversion_exact
-/
import ClauseEngine.Proofs.Duration.Arithmetic
import Mathlib.Data.Rat.Floor
import Mathlib.Order.Bounds.Defs

namespace ClauseEngine

open Integer

/-! ### Quotients and multiples

The facts about rounded quotients that conversions rest on. The lengths of units form a chain of
multiples. -/

/-- Rounding down to a multiple does not change a quotient by a multiple of it. -/
theorem Integer.ediv_mul_ediv {k m : Int} (z : Int) (hpos : 0 < k) (hdvd : k ∣ m) :
    z / k * k / m = z / m := by
  obtain ⟨ratio, rfl⟩ := hdvd
  rw [Int.mul_comm k ratio, Int.mul_ediv_mul_of_pos_left _ _ hpos,
    Int.ediv_ediv_of_nonneg hpos.le, Int.mul_comm]

/-- The greatest multiple below a number. -/
theorem Integer.isGreatest_ediv_mul {ratio : Int} (hpos : 0 < ratio) (z : Int) :
    IsGreatest {multiple | ratio ∣ multiple ∧ multiple ≤ z} (z / ratio * ratio) := by
  constructor
  · exact ⟨Int.dvd_mul_left _ _, Int.ediv_mul_le z hpos.ne'⟩
  · rintro _ ⟨⟨count, rfl⟩, hle⟩
    rw [Int.mul_comm] at hle ⊢
    have hcount : count ≤ z / ratio := (Int.le_ediv_iff_mul_le hpos).2 hle
    exact Int.mul_le_mul_of_nonneg_right hcount hpos.le

/-- A factor of a number that fits does. -/
theorem Integer.Fits.of_mul {k ratio : Int} (h : Fits (k * ratio)) (hpos : 0 < ratio) : Fits k := by
  obtain ⟨hlow, hhigh⟩ := h
  rcases Int.le_total 0 k with hk | hk
  · have hle : k ≤ k * ratio := le_mul_of_one_le_right hk hpos
    exact ⟨Int.le_trans (by decide) hk, Int.le_trans hle hhigh⟩
  · have hle : k * ratio ≤ k := mul_le_of_one_le_right hk hpos
    exact ⟨Int.le_trans hlow hle, Int.le_trans hk (by decide)⟩

namespace TemporalUnit

/-- A coarser unit is a multiple of a finer one. -/
theorem length_dvd_of_le {u v : TemporalUnit} (h : u.length ≤ v.length) :
    (u.length : Int) ∣ v.length := by
  have hfiner := v.length_finer_dvd u
  rwa [length_finer, Nat.min_eq_right h] at hfiner

/-- Three units that only get coarser or only get finer. -/
def InOneDirection (u v w : TemporalUnit) : Prop :=
  (u.length ≤ v.length ∧ v.length ≤ w.length) ∨ (w.length ≤ v.length ∧ v.length ≤ u.length)

end TemporalUnit

namespace Duration

open TemporalUnit

variable {n m : Int64} {source target u v w : TemporalUnit}

/-! ### One conversion

A conversion rounds the exact quotient of the lengths down and checks that the result fits. Towards
a coarser unit it always fits, and towards a finer one nothing is rounded. -/

/-- A conversion gives the exact amount rounded down, and overflows exactly where that does not fit. -/
theorem convertAmount_exact (n : Int64) (source target : TemporalUnit) :
    OverflowsUnless (Fits (n.toInt * source.length / target.length))
      (fun m => m.toInt = n.toInt * source.length / target.length)
      (convertAmount n source target) where
  success h := ⟨_, convertAmount_of_fits h, toInt_ofInt h⟩
  overflow h := ⟨_, convertAmount_of_not_fits h⟩

/-- A conversion succeeds with a number exactly if that is the exact quotient, rounded down. -/
theorem convertAmount_eq_ok_iff :
    convertAmount n source target = .ok m ↔
      m.toInt = n.toInt * source.length / target.length := by
  constructor
  · intro h
    exact ((convertAmount_exact n source target).of_ok h).2
  · intro h
    have hfits : Fits (n.toInt * source.length / target.length) := h ▸ fits_toInt m
    rw [convertAmount_of_fits hfits, ← h, Int64.ofInt_toInt]

/-- A unit that is no finer than another is a multiple of it. -/
theorem exists_ratio (h : source.length ≤ target.length) :
    ∃ ratio : Nat, 0 < ratio ∧ target.length = ratio * source.length := by
  obtain ⟨ratio, hratio⟩ := Int.natCast_dvd_natCast.1 (length_dvd_of_le h)
  have hpos : 0 < target.length := Int.natCast_pos.1 target.length_pos
  exact ⟨ratio, Nat.pos_of_mul_pos_left (hratio ▸ hpos), by rw [hratio, Nat.mul_comm]⟩

/-- The amount in a coarser unit is the amount by the ratio of the units. -/
theorem exactAmount_of_coarser {ratio : Nat} (z : Int)
    (hratio : target.length = ratio * source.length) :
    z * source.length / target.length = z / ratio := by
  rw [hratio, Int.natCast_mul, Int.mul_ediv_mul_of_pos_left _ _ source.length_pos]

/-- The amount in a finer unit is the amount times the ratio of the units. -/
theorem exactAmount_of_finer {ratio : Nat} (z : Int)
    (hratio : source.length = ratio * target.length) :
    z * source.length / target.length = z * ratio := by
  rw [hratio, Int.natCast_mul, ← Int.mul_assoc, Int.mul_ediv_cancel _ target.length_pos.ne']

/-- An amount in a coarser unit always fits. -/
theorem fits_of_coarser (n : Int64) (h : source.length ≤ target.length) :
    Fits (n.toInt * source.length / target.length) := by
  obtain ⟨ratio, hpos, hratio⟩ := exists_ratio h
  rw [exactAmount_of_coarser _ hratio]
  exact (fits_toInt n).ediv (Int.natCast_pos.2 hpos)

/-! ### Chains of conversions

Rounding down twice in one direction is rounding down once: two products compose, and so do two
quotients by multiples. -/

/-- In one direction, rounding twice is rounding once. -/
theorem exactAmount_compose (h : InOneDirection u v w) (z : Int) :
    z * u.length / v.length * v.length / w.length = z * u.length / w.length := by
  rcases h with ⟨-, hcoarser⟩ | ⟨-, hfiner⟩
  · exact ediv_mul_ediv _ v.length_pos (length_dvd_of_le hcoarser)
  · rw [Int.ediv_mul_cancel (Int.dvd_mul_of_dvd_right (length_dvd_of_le hfiner))]

/-- Where the amount in the last unit fits, so does the one in between. -/
theorem fits_of_inOneDirection (h : InOneDirection u v w)
    (hfits : Fits (n.toInt * u.length / w.length)) : Fits (n.toInt * u.length / v.length) := by
  have hcompose := exactAmount_compose h n.toInt
  rcases h with ⟨hcoarser, -⟩ | ⟨hfiner, -⟩
  · exact fits_of_coarser n hcoarser
  · -- The last amount is a multiple of the one in between.
    obtain ⟨ratio, hpos, hratio⟩ := exists_ratio hfiner
    rw [← hcompose, exactAmount_of_finer _ hratio] at hfits
    exact hfits.of_mul (Int.natCast_pos.2 hpos)

/-- Two conversions in one direction come to the direct one. -/
theorem convertAmount_compose (h : InOneDirection u v w) :
    (convertAmount n u v >>= fun k => convertAmount k v w) = .ok m ↔
      convertAmount n u w = .ok m := by
  rw [bind_eq_ok_iff]
  constructor
  · rintro ⟨k, hfirst, hsecond⟩
    rw [convertAmount_eq_ok_iff] at *
    rw [hsecond, hfirst, exactAmount_compose h]
  · intro hdirect
    obtain ⟨hfits, hm⟩ := (convertAmount_exact n u w).of_ok hdirect
    obtain ⟨k, hfirst, hk⟩ :=
      (convertAmount_exact n u v).success (fits_of_inOneDirection h hfits)
    have hsecond : m.toInt = k.toInt * v.length / w.length := by
      rw [hm, hk, exactAmount_compose h]
    exact ⟨k, hfirst, convertAmount_eq_ok_iff.2 hsecond⟩

/-! ### The way back

A product by a whole ratio is undone by the quotient. A quotient leaves the greatest multiple of the
ratio that does not exceed the amount. -/

/-- A conversion to a finer unit is undone by the way back. -/
theorem convertAmount_finer_and_back (h : target.length ≤ source.length)
    (hconvert : convertAmount n source target = .ok m) :
    convertAmount m target source = .ok n := by
  have hdvd : (target.length : Int) ∣ n.toInt * source.length :=
    Int.dvd_mul_of_dvd_right (length_dvd_of_le h)
  rw [convertAmount_eq_ok_iff] at hconvert ⊢
  rw [hconvert, Int.ediv_mul_cancel hdvd, Int.mul_ediv_cancel _ source.length_pos.ne']

/-- The way back from a coarser unit gives a multiple of the ratio. Only the least number of the
    language can be in its way. -/
theorem convertAmount_coarser_and_back {ratio : Nat} (n : Int64) (hpos : 0 < ratio)
    (hratio : target.length = ratio * source.length) :
    OverflowsUnless (minInt ≤ n.toInt / ratio * ratio)
      (fun back => back.toInt = n.toInt / ratio * ratio)
      (convertAmount n source target >>= fun k => convertAmount k target source) := by
  have hcoarser : source.length ≤ target.length := hratio ▸ Nat.le_mul_of_pos_left _ hpos
  obtain ⟨k, hfirst, hk⟩ := (convertAmount_exact n source target).success (fits_of_coarser n hcoarser)
  have hback := convertAmount_exact k target source
  have hmultiple : n.toInt / ratio * ratio ≤ n.toInt :=
    Int.ediv_mul_le _ (Int.natCast_pos.2 hpos).ne'
  have hfits : Fits (n.toInt / ratio * ratio) ↔ minInt ≤ n.toInt / ratio * ratio :=
    ⟨And.left, fun h => ⟨h, Int.le_trans hmultiple (fits_toInt n).2⟩⟩
  rw [exactAmount_of_finer _ hratio, hk, exactAmount_of_coarser _ hratio, hfits] at hback
  rw [hfirst]
  exact hback

/-- Conversion of an amount between units. It gives the floor of the exact quotient, and it overflows
    exactly if the unit is finer and that number does not fit. Through units that only get coarser or
    only get finer, two conversions succeed exactly where the direct one does, with the same amount. A
    conversion to a finer unit is undone by the way back. The way back from a coarser unit gives the
    greatest multiple of the ratio that the amount reaches, and it overflows exactly if that multiple
    is below the least number. -/
theorem conversion_exact (n : Int64) :
    (∀ source target : TemporalUnit,
      OverflowsUnless
        (target.length < source.length →
          Fits ⌊((n.toInt * source.length : Int) : ℚ) / target.length⌋)
        (fun m => m.toInt = ⌊((n.toInt * source.length : Int) : ℚ) / target.length⌋)
        (convertAmount n source target)) ∧
    (∀ u v w : TemporalUnit, InOneDirection u v w → ∀ m : Int64,
      (convertAmount n u v >>= fun k => convertAmount k v w) = .ok m ↔
        convertAmount n u w = .ok m) ∧
    (∀ source target : TemporalUnit, target.length ≤ source.length → ∀ m : Int64,
      convertAmount n source target = .ok m → convertAmount m target source = .ok n) ∧
    ∀ source target : TemporalUnit, source.length ≤ target.length →
      ∃ ratio : Nat, target.length = ratio * source.length ∧
        ∃ multiple : Int, IsGreatest {z : Int | (ratio : Int) ∣ z ∧ z ≤ n.toInt} multiple ∧
          OverflowsUnless (minInt ≤ multiple) (fun back => back.toInt = multiple)
            (convertAmount n source target >>= fun k => convertAmount k target source) := by
  refine ⟨fun source target => ?_, fun u v w h m => convertAmount_compose h,
    fun source target h m => convertAmount_finer_and_back h, fun source target h => ?_⟩
  · rw [Rat.floor_intCast_div_natCast]
    have hexact := convertAmount_exact n source target
    -- Towards a coarser unit the amount fits by itself.
    have hfits : (target.length < source.length → Fits (n.toInt * source.length / target.length)) ↔
        Fits (n.toInt * source.length / target.length) :=
      ⟨fun hfiner => (Nat.lt_or_ge target.length source.length).elim hfiner (fits_of_coarser n),
        fun hfits _ => hfits⟩
    rwa [hfits]
  · obtain ⟨ratio, hpos, hratio⟩ := exists_ratio h
    exact ⟨ratio, hratio, _, isGreatest_ediv_mul (Int.natCast_pos.2 hpos) n.toInt,
      convertAmount_coarser_and_back n hpos hratio⟩

/-- A negative second is a negative week, directly and by way of hours. Three weeks come back from
    minutes. The least number of seconds falls into a minute that starts below it. -/
theorem conversion_exact_of_extremes :
    InOneDirection .seconds .hours .weeks ∧
      (convertAmount (-1) .seconds .hours >>= fun k => convertAmount k .hours .weeks) = .ok (-1) ∧
      convertAmount 3 .weeks .minutes = .ok 30240 ∧
      convertAmount 30240 .minutes .weeks = .ok 3 ∧
      ∃ error, (convertAmount (Int64.ofInt minInt) .seconds .minutes >>=
        fun k => convertAmount k .minutes .seconds) = .error (.overflow error) := by
  have hchain : InOneDirection .seconds .hours .weeks := .inl (by decide)
  obtain ⟨-, hcompose, -⟩ := conversion_exact (-1)
  obtain ⟨-, -, hback, -⟩ := conversion_exact 3
  obtain ⟨-, -, -, hmultiple⟩ := conversion_exact (Int64.ofInt minInt)
  obtain ⟨ratio, hratio, multiple, hgreatest, hreturn⟩ := hmultiple .seconds .minutes (by decide)
  obtain rfl : ratio = 60 := by simpa [TemporalUnit.length] using hratio.symm
  have hbelow : ¬ minInt ≤ multiple := by
    obtain ⟨⟨⟨count, rfl⟩, hle⟩, -⟩ := hgreatest
    rw [toInt_ofInt (by decide)] at hle
    unfold minInt at *
    omega
  exact ⟨hchain, (hcompose _ _ _ hchain _).2 rfl, rfl, hback .weeks .minutes (by decide) _ rfl,
    hreturn.overflow hbelow⟩

end Duration

end ClauseEngine
