/-
Module: ClauseEngine.Proofs.Sequence.Membership
Purpose: The operators that can tell whether a value occurs in a sequence give the same answer. What
  the value alone has in common with the sequence is the value or nothing, and every other operator
  is in balance with that: what is left of the value, what the sequence gains by it, and what it
  gains when duplicates are removed, each make up one item together with the common part.
Main exports: Sequence.length_common, Bag.length_minus_add_min, Bag.length_max_add_min,
  Sequence.length_firsts_add_common, Sequence.count_eq_count_iff, Sequence.membership_tests_agree
-/
import ClauseEngine.Proofs.Sequence.Distinct
import ClauseEngine.Proofs.Sequence.Multiplicity
import Mathlib.Data.List.TFAE

namespace ClauseEngine

/-! ### Balances of the bag operators

Both are counts of the partitions of items that the bag operators make. -/

namespace Bag

open Value (order)

/-- Difference and intersection share out the first list. -/
theorem length_minus_add_min (xs ys : List Value) :
    (minus xs ys).length + (min xs ys).length = xs.length := by
  rw [← List.length_append, (minus_append_min_perm xs ys).length_eq]

/-- Greatest union and intersection share out both lists. -/
theorem length_max_add_min (xs ys : List Value) :
    (max xs ys).length + (min xs ys).length = xs.length + ys.length := by
  have hsame : SameOccurrences order (max xs ys ++ min xs ys) (xs ++ ys) := by
    intro v
    rw [occurrences_append, occurrences_append, occurrences_max_add_min]
  rw [← List.length_append, hsame.length_eq, List.length_append]

end Bag

namespace Sequence

open Bag
open Value (order)

/-! ### One value and a sequence

What a value has in common with a sequence has one item or none. Which of the two it is can be read
from the length of any of the other results. -/

/-- A bag operator on one value and a sequence. -/
theorem bagOperator_single {f : List Value → List Value → List Value} (x : Value)
    (items : List Value) :
    bagOperator f (.seq [x]) (.seq items) = .ok (.seq (f [x] (Value.sort items))) := by
  have hsort : Value.sort [x] = [x] := List.mergeSort_singleton x
  show Except.ok (Value.seq (f (Value.sort [x]) (Value.sort items))) = _
  rw [hsort]

/-- What a value alone has in common with a sequence. -/
def common (x : Value) (items : List Value) : List Value := Bag.min [x] (Value.sort items)

theorem occurrences_common (v x : Value) (items : List Value) :
    occurrences order v (common x items) =
      Min.min (occurrences order v [x]) (occurrences order v items) := by
  rw [common, occurrences_min (List.pairwise_singleton _ x) (ascending_sort items),
    occurrences_sort]

/-- It is the value itself, if that occurs. -/
theorem length_common (x : Value) (items : List Value) :
    (common x items).length = Min.min 1 (occurrences order x items) := by
  have hself : occurrences order x [x] = 1 := by
    rw [occurrences_cons, occurrences_nil, if_pos Std.ReflCmp.compare_self]
  have hcount := occurrences_common x x items
  rw [hself] at hcount
  rcases List.sublist_singleton.1 (min_sublist [x] (Value.sort items)) with hnone | hone
  · rw [common, hnone] at hcount ⊢
    exact hcount
  · rw [common, hone] at hcount ⊢
    rw [← hcount, hself, List.length_singleton]

/-- A value put behind a sequence is kept by the removal of duplicates unless it is common to both.
    Both sides hold every value equally often: once if it occurs in the sequence, and once more
    if it equals the new one. -/
theorem length_firsts_add_common (x : Value) (items : List Value) :
    (firsts (items ++ [x])).length + (common x items).length = (firsts items).length + 1 := by
  have hsame : SameOccurrences order (firsts (items ++ [x]) ++ common x items)
      (firsts items ++ [x]) := by
    intro v
    have hle : occurrences order v [x] ≤ 1 := List.countP_le_length
    rw [occurrences_append, occurrences_append, occurrences_firsts, occurrences_firsts,
      occurrences_append, occurrences_common]
    omega
  rw [← List.length_append, hsame.length_eq, List.length_append, List.length_singleton]

/-! ### Counts

A test in the language compares two counts, which are words. The lengths that are compared differ by
one at most, so that the words tell them apart even where they wrap round. -/

/-- The word that counts the items tells two lengths apart that differ by one at most. -/
theorem count_eq_count_iff {xs ys : List Value} (hle : ys.length ≤ xs.length)
    (hnear : xs.length ≤ ys.length + 1) :
    count (.seq xs) = count (.seq ys) ↔ xs.length = ys.length := by
  constructor
  · intro h
    by_contra hne
    have hsucc : xs.length = ys.length + 1 := by omega
    have hword : Int64.ofNat xs.length = Int64.ofNat ys.length := by
      simpa [count, Value.asSeq] using h
    rw [hsucc, Int64.ofNat_add] at hword
    simp at hword
  · intro h
    show Except.ok (Value.nat (Int64.ofNat xs.length)) = .ok (.nat (Int64.ofNat ys.length))
    rw [h]

/-- Whether a value equals an item of a sequence can be asked in five ways: the sequence contains
    it, the value alone has something in common with the sequence, nothing is left of it without
    the items of the sequence, the greatest union with it counts no more items than the sequence,
    and neither does the sequence with the value behind it once duplicates are removed from both.
    All of these succeed and give the same answer. -/
theorem membership_tests_agree (x : Value) (items : List Value) :
    ∃ (found : Bool) (shared rest widest together alone : List Value),
      (contains x (.seq items) = .ok (.bool found) ∧
        min (.seq [x]) (.seq items) = .ok (.seq shared) ∧
        minus (.seq [x]) (.seq items) = .ok (.seq rest) ∧
        max (.seq [x]) (.seq items) = .ok (.seq widest) ∧
        (union (.seq items) (.seq [x]) >>= distinct) = .ok (.seq together) ∧
        distinct (.seq items) = .ok (.seq alone)) ∧
      [∃ item ∈ items, Value.equal item x = true, found = true, shared ≠ [], rest = [],
        count (.seq widest) = count (.seq items),
        count (.seq together) = count (.seq alone)].TFAE := by
  refine ⟨_, common x items, Bag.minus [x] (Value.sort items), Bag.max [x] (Value.sort items), _, _,
    ⟨rfl, bagOperator_single x items, bagOperator_single x items, bagOperator_single x items,
      distinct_seq (items ++ [x]), distinct_seq items⟩, ?_⟩
  have hcommon := length_common x items
  have hminus := length_minus_add_min [x] (Value.sort items)
  have hmax := length_max_add_min [x] (Value.sort items)
  have hfirsts := length_firsts_add_common x items
  have hlength : (Value.sort items).length = items.length := List.length_mergeSort items
  rw [List.length_singleton, ← common] at hminus
  rw [List.length_singleton, ← common, hlength] at hmax
  apply List.tfae_of_forall (0 < occurrences order x items)
  simp only [List.forall_mem_cons, List.not_mem_nil, false_implies, implies_true, and_true]
  refine ⟨?_, any_equal_iff, ?_, ?_, ?_, ?_⟩
  · rw [← any_equal_iff, List.any_eq_true]
  · rw [← List.length_pos_iff]
    omega
  · rw [← List.length_eq_zero_iff]
    omega
  · rw [count_eq_count_iff (by omega) (by omega)]
    omega
  · rw [count_eq_count_iff (by omega) (by omega)]
    omega

end Sequence

end ClauseEngine
