/-
Module: ClauseEngine.Proofs.Sequence.Multiplicity
Purpose: How often each value occurs after a bag operator. Difference and intersection share out the
  items of the first list, and greatest union and intersection those of both lists, whatever the
  order of the lists. Only the count of the intersection needs them to ascend; the other two counts
  follow from it.
Main exports: Bag.minus_append_min_perm, Bag.occurrences_min, Bag.occurrences_minus,
  Bag.occurrences_max, Bag.ascending_max, Sequence.bagOperators_multiplicity
-/
import ClauseEngine.Primitive.Sequence
import ClauseEngine.Proofs.Bag
import ClauseEngine.Proofs.Value.Order

namespace ClauseEngine

namespace Bag

open Value (order)

/-! ### Items of the operands

Difference and intersection keep items of the first list and greatest union adds items of the
second. -/

theorem minus_sublist (xs ys : List Value) : (minus xs ys).Sublist xs := by
  fun_induction minus xs ys with
  | case1 ys => exact List.Sublist.refl []
  | case2 x xs => exact List.Sublist.refl (x :: xs)
  | case3 x xs y ys horder ih => exact ih.cons_cons x
  | case4 x xs y ys horder ih => exact ih.cons x
  | case5 x xs y ys horder ih => exact ih

theorem min_sublist (xs ys : List Value) : (min xs ys).Sublist xs := by
  fun_induction min xs ys with
  | case1 ys => exact List.Sublist.refl []
  | case2 x xs => exact List.nil_sublist (x :: xs)
  | case3 x xs y ys horder ih => exact ih.cons x
  | case4 x xs y ys horder ih => exact ih.cons_cons x
  | case5 x xs y ys horder ih => exact ih

/-- Greatest union keeps the first list and its order. -/
theorem sublist_max (xs ys : List Value) : xs.Sublist (max xs ys) := by
  fun_induction max xs ys with
  | case1 ys => exact List.nil_sublist ys
  | case2 x xs => exact List.Sublist.refl (x :: xs)
  | case3 x xs y ys horder ih => exact ih.cons_cons x
  | case4 x xs y ys horder ih => exact ih.cons_cons x
  | case5 x xs y ys horder ih => exact ih.cons y

theorem mem_of_mem_max {x : Value} {xs ys : List Value} (h : x ∈ max xs ys) :
    x ∈ xs ∨ x ∈ ys := by
  fun_induction max xs ys <;> grind

/-! ### Occurrences

Two balances hold of lists in any order. The intersection is counted by induction on both lists,
where ascending lists are needed to see that an item which is passed over does not come again. -/

/-- Each item of the first list is either left by difference or taken by intersection. -/
theorem minus_append_min_perm (xs ys : List Value) : (minus xs ys ++ min xs ys).Perm xs := by
  fun_induction minus xs ys with
  | case1 ys => simp [min]
  | case2 x xs => simp [min]
  | case3 x xs y ys horder ih => simpa [min, horder] using ih.cons x
  | case4 x xs y ys horder ih =>
      simp only [min, horder]
      exact List.perm_middle.trans (ih.cons x)
  | case5 x xs y ys horder ih => simpa [min, horder] using ih

/-- Greatest union and intersection together have the occurrences of both lists: of two equal items
    one goes to either side. -/
theorem occurrences_max_add_min (v : Value) (xs ys : List Value) :
    occurrences order v (max xs ys) + occurrences order v (min xs ys) =
      occurrences order v xs + occurrences order v ys := by
  fun_induction max xs ys with
  | case1 ys => simp [min, occurrences]
  | case2 x xs => simp [min, occurrences]
  | case3 x xs y ys horder ih =>
      simp only [min, horder, occurrences_cons] at ih ⊢
      omega
  | case4 x xs y ys horder ih =>
      simp only [min, horder, occurrences_cons, Std.TransCmp.congr_right horder] at ih ⊢
      omega
  | case5 x xs y ys horder ih =>
      simp only [min, horder, occurrences_cons] at ih ⊢
      omega

section Ascending

variable {xs ys : List Value} (hxs : Ascending order xs) (hys : Ascending order ys)

include hxs hys

/-- An item is passed over only if it is below all that is left of the other list, so that no equal
    of it is missed there. -/
theorem occurrences_min (v : Value) :
    occurrences order v (min xs ys) =
      Min.min (occurrences order v xs) (occurrences order v ys) := by
  fun_induction min xs ys with
  | case1 ys => simp [occurrences]
  | case2 x xs => simp [occurrences]
  | case3 x xs y ys horder ih =>
      rw [ih (List.pairwise_cons.1 hxs).2 hys, occurrences_cons v x]
      split
      · rename_i hv
        have hlt : order v y = .lt := (Std.TransCmp.congr_left hv).trans horder
        rw [occurrences_eq_zero_of_lt hys hlt, Nat.min_zero, Nat.min_zero]
      · rfl
  | case4 x xs y ys horder ih =>
      rw [occurrences_cons, occurrences_cons, occurrences_cons,
        ih (List.pairwise_cons.1 hxs).2 (List.pairwise_cons.1 hys).2,
        Std.TransCmp.congr_right horder, Nat.add_min_add_right]
  | case5 x xs y ys horder ih =>
      rw [ih hxs (List.pairwise_cons.1 hys).2, occurrences_cons v y]
      split
      · rename_i hv
        have hlt : order v x = .lt :=
          (Std.TransCmp.congr_left hv).trans (Std.OrientedCmp.lt_of_gt horder)
        rw [occurrences_eq_zero_of_lt hxs hlt, Nat.zero_min, Nat.zero_min]
      · rfl

/-- The difference takes away as many occurrences as the second list has. -/
theorem occurrences_minus (v : Value) :
    occurrences order v (minus xs ys) = occurrences order v xs - occurrences order v ys := by
  have hshared : occurrences order v (minus xs ys ++ min xs ys) = occurrences order v xs :=
    sameOccurrences_of_perm (minus_append_min_perm xs ys) v
  rw [occurrences_append, occurrences_min hxs hys] at hshared
  omega

/-- The greatest union has as many occurrences as the list that has more. -/
theorem occurrences_max (v : Value) :
    occurrences order v (max xs ys) =
      Max.max (occurrences order v xs) (occurrences order v ys) := by
  have hshared := occurrences_max_add_min v xs ys
  rw [occurrences_min hxs hys] at hshared
  omega

/-- The greatest union of ascending lists ascends. -/
theorem ascending_max : Ascending order (max xs ys) := by
  fun_induction max xs ys with
  | case1 ys => exact hys
  | case2 x xs => exact hxs
  | case3 x xs y ys horder ih =>
      obtain ⟨hx, htail⟩ := List.pairwise_cons.1 hxs
      refine List.pairwise_cons.2 ⟨fun z hz => ?_, ih htail hys⟩
      rcases mem_of_mem_max hz with hz | hz
      · exact hx z hz
      · exact Std.TransCmp.isLE_trans (Ordering.isLE_of_eq_lt horder) (hys.head_isLE_of_mem hz)
  | case4 x xs y ys horder ih =>
      obtain ⟨hx, htail⟩ := List.pairwise_cons.1 hxs
      obtain ⟨hy, htail'⟩ := List.pairwise_cons.1 hys
      refine List.pairwise_cons.2 ⟨fun z hz => ?_, ih htail htail'⟩
      rcases mem_of_mem_max hz with hz | hz
      · exact hx z hz
      · rw [Std.TransCmp.congr_left horder]
        exact hy z hz
  | case5 x xs y ys horder ih =>
      obtain ⟨hy, htail⟩ := List.pairwise_cons.1 hys
      refine List.pairwise_cons.2 ⟨fun z hz => ?_, ih hxs htail⟩
      rcases mem_of_mem_max hz with hz | hz
      · have hlt := Std.OrientedCmp.lt_of_gt horder
        exact Std.TransCmp.isLE_trans (Ordering.isLE_of_eq_lt hlt) (hxs.head_isLE_of_mem hz)
      · exact hy z hz

end Ascending

end Bag

namespace Sequence

open Bag
open Value (order)

theorem ascending_sort (items : List Value) : Ascending order (Value.sort items) :=
  ascending_mergeSort items

theorem occurrences_sort (v : Value) (items : List Value) :
    occurrences order v (Value.sort items) = occurrences order v items :=
  sameOccurrences_of_perm (List.mergeSort_perm items _) v

/-- Difference, intersection and greatest union of two sequences succeed and ascend. They hold every
    value as often as the two counts say, up to equality. What difference and intersection keep are
    the first sequence's own items, in the order of its stable sort, and greatest union keeps all of
    these. -/
theorem bagOperators_multiplicity (as bs : List Value) :
    ∃ difference common widest : List Value,
      (minus (.seq as) (.seq bs) = .ok (.seq difference) ∧
        min (.seq as) (.seq bs) = .ok (.seq common) ∧
        max (.seq as) (.seq bs) = .ok (.seq widest)) ∧
      (Ascending order difference ∧ Ascending order common ∧ Ascending order widest) ∧
      (∀ v,
        occurrences order v difference = occurrences order v as - occurrences order v bs ∧
        occurrences order v common = Min.min (occurrences order v as) (occurrences order v bs) ∧
        occurrences order v widest = Max.max (occurrences order v as) (occurrences order v bs)) ∧
      (∃ sorted, StableSort (order · · = .lt) (order · · = .eq) as sorted ∧
        difference.Sublist sorted ∧ common.Sublist sorted ∧ sorted.Sublist widest) ∧
      ∀ item ∈ as, item ∈ widest := by
  have has := ascending_sort as
  have hbs := ascending_sort bs
  have hdifference := minus_sublist (Value.sort as) (Value.sort bs)
  have hcommon := min_sublist (Value.sort as) (Value.sort bs)
  have hwidest := sublist_max (Value.sort as) (Value.sort bs)
  refine ⟨_, _, _, ⟨rfl, rfl, rfl⟩, ⟨has.sublist hdifference, has.sublist hcommon,
    ascending_max has hbs⟩, fun v => ?_, ⟨Value.sort as, stableSort_mergeSort as, hdifference,
    hcommon, hwidest⟩, fun item hitem => hwidest.mem (List.mem_mergeSort.2 hitem)⟩
  rw [occurrences_minus has hbs, occurrences_min has hbs, occurrences_max has hbs,
    occurrences_sort, occurrences_sort]
  exact ⟨rfl, rfl, rfl⟩

end Sequence

end ClauseEngine
