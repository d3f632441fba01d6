/-
Module: ClauseEngine.Proofs.Sequence.Distinct
Purpose: Removing duplicates leaves the first item of each class of equal items. An item is compared
  with those kept so far only; since every item passed over equals one that was kept, this is the
  same as comparing it with all items in front of it.
Main exports: Sequence.firsts, Sequence.firstOnly_eq, Sequence.occurrences_firsts,
  Sequence.distinct_first_of_class
-/
import ClauseEngine.Primitive.Sequence
import ClauseEngine.Proofs.Bag
import ClauseEngine.Proofs.Value.Order

namespace ClauseEngine

namespace Sequence

open Bag
open Value (order)

/-- The items that equal none of those in front of them. -/
def firsts (items : List Value) : List Value :=
  (items.zipIdx.filter fun entry =>
    (items.take entry.2).all fun earlier => !earlier.equal entry.1).map (·.1)

/-- Having an equal among some items is occurring there. -/
theorem any_equal_iff {items : List Value} {v : Value} :
    items.any (Value.equal · v) = true ↔ 0 < occurrences order v items := by
  have hsymm (item : Value) : Value.equal item v = true ↔ (order v item).isEq = true := by
    rw [Value.equal, Ordering.isEq_iff_eq_eq, Ordering.isEq_iff_eq_eq, Std.OrientedCmp.eq_comm]
  simp only [occurrences, List.countP_pos_iff, List.any_eq_true, hsymm]

/-- The items that are kept stand in the order they had. -/
theorem firstOnly_sublist (kept items : List Value) : (firstOnly kept items).Sublist items := by
  fun_induction firstOnly kept items with
  | case1 kept => exact List.Sublist.refl []
  | case2 kept x rest hany ih => exact ih.cons x
  | case3 kept x rest hany ih => exact ih.cons_cons x

/-! ### Comparing with the items kept is comparing with all before

The invariant of the walk is that an item equals one that was kept exactly if it equals one in
front. An item that is passed over keeps it, by transitivity. -/

/-- The induction is on the items still to come. What is kept stands for all the items before them:
    a value has an equal on one side exactly if it has one on the other. -/
theorem firstOnly_eq (kept before rest : List Value)
    (h : ∀ v, 0 < occurrences order v kept ↔ 0 < occurrences order v before) :
    firstOnly kept rest =
      ((rest.zipIdx before.length).filter fun entry =>
        ((before ++ rest).take entry.2).all fun earlier => !earlier.equal entry.1).map (·.1) := by
  induction rest generalizing kept before with
  | nil => rfl
  | cons x rest ih =>
      have hbefore : before.any (Value.equal · x) = kept.any (Value.equal · x) := by
        rw [Bool.eq_iff_iff, any_equal_iff, any_equal_iff, h]
      have hshift : before ++ x :: rest = (before ++ [x]) ++ rest := by simp
      have hlength : before.length + 1 = (before ++ [x]).length := by simp
      rw [List.zipIdx_cons, List.filter_cons, List.take_left, ← List.not_any_eq_all_not, hbefore,
        firstOnly, hshift, hlength]
      by_cases hany : kept.any (Value.equal · x) = true
      · have hstill (v : Value) :
            0 < occurrences order v kept ↔ 0 < occurrences order v (before ++ [x]) := by
          have hv := h v
          rw [occurrences_append, occurrences_cons, occurrences_nil]
          split
          · rename_i heq
            have hpos := any_equal_iff.1 hany
            rw [← occurrences_congr heq] at hpos
            omega
          · omega
        rw [if_pos hany, ih _ _ hstill]
        simp [hany]
      · have hstill (v : Value) :
            0 < occurrences order v (x :: kept) ↔ 0 < occurrences order v (before ++ [x]) := by
          have hv := h v
          rw [occurrences_append, occurrences_cons, occurrences_cons, occurrences_nil]
          omega
        rw [if_neg hany, ih _ _ hstill]
        simp [hany]

theorem firstOnly_nil (items : List Value) : firstOnly [] items = firsts items :=
  firstOnly_eq [] [] items fun _ => Iff.rfl

/-! ### Occurrences

A value occurs once after the duplicates are removed if it occurred at all. Keeping some items
beforehand takes their values away from the result. -/

/-- A value is kept once, unless an equal was kept before or it does not occur. -/
theorem occurrences_firstOnly (v : Value) (kept items : List Value) :
    occurrences order v (firstOnly kept items) =
      if 0 < occurrences order v kept then 0 else Min.min 1 (occurrences order v items) := by
  fun_induction firstOnly kept items with
  | case1 kept => simp [occurrences]
  | case2 kept x rest hany ih =>
      rw [ih, occurrences_cons]
      by_cases hv : order v x = .eq
      · have hpos : 0 < occurrences order v kept := by
          rw [occurrences_congr hv]
          exact any_equal_iff.1 hany
        rw [if_pos hpos, if_pos hpos]
      · rw [if_neg hv, Nat.add_zero]
  | case3 kept x rest hany ih =>
      rw [occurrences_cons, ih, occurrences_cons, occurrences_cons]
      by_cases hv : order v x = .eq
      · have hzero : occurrences order v kept = 0 := by
          rw [any_equal_iff, ← occurrences_congr hv] at hany
          omega
        simp [hv, hzero]
      · simp [hv]

/-- A value that occurs is left once. -/
theorem occurrences_firsts (v : Value) (items : List Value) :
    occurrences order v (firsts items) = Min.min 1 (occurrences order v items) := by
  rw [← firstOnly_nil, occurrences_firstOnly]
  rfl

/-- Items of which none occurs twice are pairwise different. -/
theorem pairwise_of_occurrences_le_one {items : List Value}
    (h : ∀ v, occurrences order v items ≤ 1) : items.Pairwise fun x y => order x y ≠ .eq := by
  induction items with
  | nil => exact .nil
  | cons x rest ih =>
      have hrest (v : Value) : occurrences order v rest ≤ 1 := by
        have hv := h v
        rw [occurrences_cons] at hv
        omega
      have hx := h x
      rw [occurrences_cons, if_pos Std.ReflCmp.compare_self] at hx
      exact .cons (occurrences_eq_zero_iff.1 (by omega)) (ih hrest)

/-- Nothing is removed from items that are pairwise different. -/
theorem firstOnly_eq_self {kept items : List Value}
    (hkept : ∀ x ∈ items, occurrences order x kept = 0)
    (hitems : items.Pairwise fun x y => order x y ≠ .eq) : firstOnly kept items = items := by
  induction items generalizing kept with
  | nil => rfl
  | cons x rest ih =>
      obtain ⟨hx, hrest⟩ := List.forall_mem_cons.1 hkept
      obtain ⟨hne, hpairwise⟩ := List.pairwise_cons.1 hitems
      have hany : ¬ kept.any (Value.equal · x) = true := by
        rw [any_equal_iff]
        omega
      rw [firstOnly, if_neg hany, ih _ hpairwise]
      intro y hy
      rw [occurrences_cons, hrest y hy, if_neg]
      rw [Std.OrientedCmp.eq_comm]
      exact hne y hy

/-! ### The operator

The operator is the walk with nothing kept before, and what is said of the walk becomes a statement
about the items of an operand. -/

/-- The operator keeps the first item of each class. -/
theorem distinct_seq (items : List Value) :
    distinct (.seq items) = .ok (.seq (firsts items)) := by
  rw [← firstOnly_nil]
  rfl

/-- No two items that are left are equal. -/
theorem firsts_different (items : List Value) :
    (firsts items).Pairwise fun x y => order x y ≠ .eq := by
  apply pairwise_of_occurrences_le_one
  intro v
  rw [occurrences_firsts]
  exact Nat.min_le_left 1 _

/-- Removing duplicates succeeds and leaves the items that equal none in front of them. No two of
    these are equal, every item equals exactly one of them, and removing duplicates again changes
    nothing. -/
theorem distinct_first_of_class (items : List Value) :
    distinct (.seq items) = .ok (.seq (firsts items)) ∧
      (firsts items).Sublist items ∧
      (firsts items).Pairwise (fun x y => order x y ≠ .eq) ∧
      (∀ item ∈ items, occurrences order item (firsts items) = 1) ∧
      distinct (.seq (firsts items)) = .ok (.seq (firsts items)) := by
  have hsublist : (firsts items).Sublist items := by
    rw [← firstOnly_nil]
    exact firstOnly_sublist [] items
  have honce : ∀ item ∈ items, occurrences order item (firsts items) = 1 := by
    intro item hitem
    have hpos : 0 < occurrences order item items :=
      occurrences_pos_iff.2 ⟨item, hitem, Std.ReflCmp.compare_self⟩
    rw [occurrences_firsts]
    omega
  have hagain : firsts (firsts items) = firsts items := by
    rw [← firstOnly_nil (firsts items)]
    exact firstOnly_eq_self (fun _ _ => rfl) (firsts_different items)
  exact ⟨distinct_seq items, hsublist, firsts_different items, honce, by rw [distinct_seq, hagain]⟩

end Sequence

end ClauseEngine
