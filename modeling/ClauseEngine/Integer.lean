/-
Module: ClauseEngine.Integer
Purpose: The whole numbers of the contract language. They are signed 64-bit words, and no
  operation on them wraps: a result that does not fit is refused by `Integer.ofInt?`, and a division
  whose quotient does not fit by `Integer.div?` and `Integer.rem?`.
Main exports: Integer.minInt, Integer.maxInt, Integer.Fits, Integer.ofInt?, Integer.HasQuotient,
  Integer.div?, Integer.rem?, Integer.signOf
-/
namespace ClauseEngine

namespace Integer

/-- The least whole number of the language. -/
def minInt : Int := -9223372036854775808

/-- The greatest whole number of the language. -/
def maxInt : Int := 9223372036854775807

/-- An exact integer that a 64-bit word holds. -/
def Fits (z : Int) : Prop := minInt ≤ z ∧ z ≤ maxInt

instance (z : Int) : Decidable (Fits z) := by
  unfold Fits
  infer_instance

/-- The word that holds an exact integer, if one does. -/
def ofInt? (z : Int) : Option Int64 :=
  if Fits z then some (Int64.ofInt z) else none

/-- A divisor that is not zero, and a quotient rounded towards zero that a word holds. The only
    other quotient is that of the least word by -1, one past the greatest word. -/
def HasQuotient (x y : Int64) : Prop := y ≠ 0 ∧ ¬ (x = Int64.minValue ∧ y = -1)

instance (x y : Int64) : Decidable (HasQuotient x y) := by
  unfold HasQuotient
  infer_instance

/-- The quotient of two words, rounded towards zero, if there is one. -/
def div? (x y : Int64) : Option Int64 := if HasQuotient x y then some (x / y) else none

/-- What the quotient rounded towards zero leaves, if there is such a quotient. -/
def rem? (x y : Int64) : Option Int64 := if HasQuotient x y then some (x % y) else none

/-- The sign of a comparison as a whole number: -1, 0 or 1. -/
def signOf : Ordering → Int64
  | .lt => -1
  | .eq => 0
  | .gt => 1

/-- Every word lies in the range of the language. -/
theorem fits_toInt (n : Int64) : Fits n.toInt := by
  have hlow := Int64.le_toInt n
  have hhigh := Int64.toInt_lt n
  simp only [Fits, minInt, maxInt]
  omega

/-- A word is recovered from its exact value. -/
@[simp] theorem ofInt?_toInt (n : Int64) : ofInt? n.toInt = some n := by
  simp [ofInt?, fits_toInt]

/-- The word found holds the integer asked for. -/
theorem toInt_of_ofInt? {z : Int} {n : Int64} (h : ofInt? z = some n) : n.toInt = z := by
  unfold ofInt? at h
  split at h
  · rename_i hfits
    simp only [Fits, minInt, maxInt] at hfits
    cases h
    exact Int64.toInt_ofInt_of_le (by omega) (by omega)
  · cases h

theorem ofInt?_of_fits {z : Int} (h : Fits z) : ofInt? z = some (Int64.ofInt z) := if_pos h

theorem ofInt?_of_not_fits {z : Int} (h : ¬ Fits z) : ofInt? z = none := if_neg h

/-- An integer in range is recovered from its word. -/
theorem toInt_ofInt {z : Int} (h : Fits z) : (Int64.ofInt z).toInt = z :=
  toInt_of_ofInt? (ofInt?_of_fits h)

end Integer

end ClauseEngine
