/-
Module: ClauseEngine.Character.Ranges
Purpose: Sets of characters as tables of closed ranges of code points, ascending and disjoint, and
  the look-up in such a table.
Main exports: Ranges, Ranges.covers, Ranges.ascending, Ranges.covers_iff
-/
namespace ClauseEngine

/-- A set of code points, as its closed ranges from the lowest to the highest. -/
abbrev Ranges := List (Nat × Nat)

namespace Ranges

/-- The code point lies in a range of the table. Only the first range that ends at the code point
    or after it can hold the code point, so the search stops there. -/
def covers : Ranges → Nat → Bool
  | [], _ => false
  | (first, last) :: rest, n => if n ≤ last then decide (first ≤ n) else covers rest n

/-- Every range begins at the given bound or after it, and each ends before the next begins. -/
def ascendingFrom : Nat → Ranges → Bool
  | _, [] => true
  | bound, (first, last) :: rest =>
      decide (bound ≤ first) && decide (first ≤ last) && ascendingFrom (last + 1) rest

/-- The ranges are in order and disjoint. -/
def ascending (ranges : Ranges) : Bool := ascendingFrom 0 ranges

/-- In an ascending table no range begins below the bound. -/
theorem le_first_of_mem {bound : Nat} {ranges : Ranges} (h : ascendingFrom bound ranges = true)
    {range : Nat × Nat} (hmem : range ∈ ranges) : bound ≤ range.1 := by
  induction ranges generalizing bound with
  | nil => simp at hmem
  | cons head rest ih =>
    obtain ⟨first, last⟩ := head
    simp only [ascendingFrom, Bool.and_eq_true, decide_eq_true_eq] at h
    rcases List.mem_cons.1 hmem with rfl | hrest
    · exact h.1.1
    · have := ih h.2 hrest
      omega

/-- Stopping early loses nothing: the look-up finds a code point exactly if some range of an
    ascending table holds it. -/
theorem covers_iff {bound : Nat} {ranges : Ranges} (h : ascendingFrom bound ranges = true)
    (n : Nat) : covers ranges n = true ↔ ∃ range ∈ ranges, range.1 ≤ n ∧ n ≤ range.2 := by
  induction ranges generalizing bound with
  | nil => simp [covers]
  | cons head rest ih =>
    obtain ⟨first, last⟩ := head
    simp only [ascendingFrom, Bool.and_eq_true, decide_eq_true_eq] at h
    by_cases hn : n ≤ last
    · have hrest : ¬ ∃ range ∈ rest, range.1 ≤ n ∧ n ≤ range.2 := by
        rintro ⟨range, hmem, hlow, _⟩
        have := le_first_of_mem h.2 hmem
        omega
      simp [covers, hn, hrest]
    · simp [covers, hn, ih h.2]

end Ranges

end ClauseEngine
