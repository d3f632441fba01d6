/-
Module: ClauseEngine.Proofs.Bag
Purpose: Lists as bags up to a comparator. Two ascending lists in which every value occurs equally
  often agree place by place, up to values that compare equal. So sorting is canonical, although
  values that compare equal need not be the same. It is stable as well.
Main exports: Bag.occurrences, Bag.StableSort, Bag.sameOccurrences_of_perm,
  Bag.sameOccurrences_of_forall₂, Bag.forall₂_of_ascending, Bag.stableSort_mergeSort,
  Bag.SameOccurrences.forall₂_mergeSort, Bag.forall₂_mergeSort_iff
-/
import Mathlib.Data.List.Perm.Basic

namespace ClauseEngine

namespace Bag

variable {α : Type} (cmp : α → α → Ordering)

/-- How often a value occurs in a list, up to values that compare equal. -/
def occurrences (v : α) (items : List α) : Nat := items.countP fun item => (cmp v item).isEq

/-- Both lists hold every value equally often. -/
def SameOccurrences (xs ys : List α) : Prop := ∀ v, occurrences cmp v xs = occurrences cmp v ys

/-- The items ascend. -/
def Ascending (items : List α) : Prop := items.Pairwise fun a b => (cmp a b).isLE

variable {cmp}

/-- The items rearranged so that of any two the first comes before the second or ties with it, and
    items that tie, however many and wherever they stand, keep the order they had. -/
structure StableSort (before tie : α → α → Prop) (items sorted : List α) : Prop where
  perm : sorted.Perm items
  ascending : sorted.Pairwise fun a b => before a b ∨ tie a b
  stable (group : List α) : group.Sublist items → group.Pairwise tie → group.Sublist sorted

/-- The two relations matter only between the items themselves. -/
theorem StableSort.congr {before before' tie tie' : α → α → Prop} {items sorted : List α}
    (h : StableSort before tie items sorted)
    (hbefore : ∀ a ∈ items, ∀ b ∈ items, before a b → before' a b)
    (htie : ∀ a ∈ items, ∀ b ∈ items, tie a b ↔ tie' a b) :
    StableSort before' tie' items sorted where
  perm := h.perm
  ascending := by
    apply h.ascending.imp_of_mem
    intro a b ha hb hab
    have ha := h.perm.mem_iff.1 ha
    have hb := h.perm.mem_iff.1 hb
    exact hab.imp (hbefore a ha b hb) (htie a ha b hb).1
  stable group hgroup hties := by
    apply h.stable group hgroup
    apply hties.imp_of_mem
    intro a b ha hb
    exact (htie a (hgroup.mem ha) b (hgroup.mem hb)).2

/-- Rearranging a list changes no number of occurrences. -/
theorem sameOccurrences_of_perm {xs ys : List α} (h : xs.Perm ys) : SameOccurrences cmp xs ys :=
  fun _ => h.countP_eq _

theorem occurrences_nil (v : α) : occurrences cmp v [] = 0 := rfl

/-- An item adds one to the occurrences of what compares equal to it. -/
theorem occurrences_cons (v item : α) (items : List α) :
    occurrences cmp v (item :: items) =
      occurrences cmp v items + if cmp v item = .eq then 1 else 0 := by
  simp [occurrences, List.countP_cons]

theorem occurrences_append (v : α) (xs ys : List α) :
    occurrences cmp v (xs ++ ys) = occurrences cmp v xs + occurrences cmp v ys :=
  List.countP_append

theorem SameOccurrences.trans {xs ys zs : List α} (h : SameOccurrences cmp xs ys)
    (h' : SameOccurrences cmp ys zs) : SameOccurrences cmp xs zs :=
  fun v => (h v).trans (h' v)

theorem SameOccurrences.append {xs xs' ys ys' : List α} (hxs : SameOccurrences cmp xs xs')
    (hys : SameOccurrences cmp ys ys') : SameOccurrences cmp (xs ++ ys) (xs' ++ ys') := by
  intro v
  rw [occurrences_append, occurrences_append, hxs v, hys v]

/-- Lists that match one by one have the same occurrences when they are joined. -/
theorem sameOccurrences_flatten {xss yss : List (List α)}
    (h : List.Forall₂ (SameOccurrences cmp) xss yss) :
    SameOccurrences cmp xss.flatten yss.flatten := by
  induction h with
  | nil => exact fun _ => rfl
  | cons hhead _ ih => exact hhead.append ih

/-- A value that occurs has an equal among the items. -/
theorem occurrences_pos_iff {v : α} {items : List α} :
    0 < occurrences cmp v items ↔ ∃ item ∈ items, cmp v item = .eq := by
  simp [occurrences, List.countP_pos_iff]

/-- A value does not occur if it compares equal to none of the items. -/
theorem occurrences_eq_zero_iff {v : α} {items : List α} :
    occurrences cmp v items = 0 ↔ ∀ item ∈ items, cmp v item ≠ .eq := by
  simp [occurrences, List.countP_eq_zero]

variable [Std.TransCmp cmp]

/-- Values that compare equal occur equally often. -/
theorem occurrences_congr {v w : α} (h : cmp v w = .eq) (items : List α) :
    occurrences cmp v items = occurrences cmp w items := by
  simp only [occurrences, Std.TransCmp.congr_left h]

theorem occurrences_self_pos (item : α) (items : List α) :
    0 < occurrences cmp item (item :: items) := by
  rw [occurrences_cons, if_pos Std.ReflCmp.compare_self]
  omega

/-- Values that compare equal occur in the same places. -/
theorem sameOccurrences_of_forall₂ {xs ys : List α}
    (h : List.Forall₂ (fun x y => cmp x y = .eq) xs ys) : SameOccurrences cmp xs ys := by
  intro v
  induction h with
  | nil => rfl
  | cons hhead _ ih =>
      rw [occurrences_cons, occurrences_cons, ih, Std.TransCmp.congr_right hhead]

/-- The first of ascending items is not above any of them. -/
theorem Ascending.head_isLE_of_mem {item other : α} {items : List α}
    (h : Ascending cmp (item :: items)) (hother : other ∈ item :: items) :
    (cmp item other).isLE := by
  rcases List.mem_cons.1 hother with rfl | hother
  · exact Std.ReflCmp.isLE_rfl
  · exact (List.pairwise_cons.1 h).1 other hother

/-- A value below the first of ascending items does not occur among them. -/
theorem occurrences_eq_zero_of_lt {v item : α} {items : List α}
    (hitems : Ascending cmp (item :: items)) (h : cmp v item = .lt) :
    occurrences cmp v (item :: items) = 0 := by
  rw [occurrences_eq_zero_iff]
  intro other hother
  rw [Std.TransCmp.lt_of_lt_of_isLE h (hitems.head_isLE_of_mem hother)]
  rintro ⟨⟩

/-- The least value of one bag is not above any value of a bag with the same occurrences. -/
theorem head_isLE {x y : α} {xs ys : List α} (hx : Ascending cmp (x :: xs))
    (h : SameOccurrences cmp (x :: xs) (y :: ys)) : (cmp x y).isLE := by
  have hy : 0 < occurrences cmp y (x :: xs) := by
    rw [h y]
    exact occurrences_self_pos y ys
  obtain ⟨item, hitem, heq⟩ := occurrences_pos_iff.1 hy
  rw [Std.TransCmp.congr_right heq]
  exact hx.head_isLE_of_mem hitem

/-- Ascending lists with the same occurrences agree place by place, up to equal values. -/
theorem forall₂_of_ascending {xs ys : List α} (hxs : Ascending cmp xs) (hys : Ascending cmp ys)
    (h : SameOccurrences cmp xs ys) : List.Forall₂ (fun x y => cmp x y = .eq) xs ys := by
  induction xs generalizing ys with
  | nil =>
      cases ys with
      | nil => exact .nil
      | cons y ys => exact absurd (h y) (Nat.ne_of_lt (occurrences_self_pos y ys))
  | cons x xs ih =>
      cases ys with
      | nil => exact absurd (h x).symm (Nat.ne_of_lt (occurrences_self_pos x xs))
      | cons y ys =>
          have hsymm : SameOccurrences cmp (y :: ys) (x :: xs) := fun v => (h v).symm
          have hhead : cmp x y = .eq :=
            Std.OrientedCmp.isLE_antisymm (head_isLE hxs h) (head_isLE hys hsymm)
          refine .cons hhead (ih (List.pairwise_cons.1 hxs).2 (List.pairwise_cons.1 hys).2 ?_)
          intro v
          have hv := h v
          rw [occurrences_cons, occurrences_cons, Std.TransCmp.congr_right hhead] at hv
          exact Nat.add_right_cancel hv

/-- Of any two values one is not after the other, as sorting asks. -/
theorem isLE_or_isLE (a b : α) : ((cmp a b).isLE || (cmp b a).isLE) = true := by
  have hswap : cmp a b = (cmp b a).swap := Std.OrientedCmp.eq_swap
  rw [hswap]
  cases cmp b a <;> rfl

theorem ascending_mergeSort (items : List α) :
    Ascending cmp (items.mergeSort fun a b => (cmp a b).isLE) :=
  List.pairwise_mergeSort (fun _ _ _ => Std.TransCmp.isLE_trans) isLE_or_isLE items

/-- Items that compare equal keep their order when they are sorted. -/
theorem stableSort_mergeSort (items : List α) :
    StableSort (cmp · · = .lt) (cmp · · = .eq) items
      (items.mergeSort fun a b => (cmp a b).isLE) where
  perm := List.mergeSort_perm items _
  ascending := (ascending_mergeSort items).imp Ordering.isLE_iff_eq_lt_or_eq_eq.1
  stable group hgroup htie := by
    have hle : group.Pairwise fun a b => (cmp a b).isLE := htie.imp Ordering.isLE_of_eq_eq
    exact List.sublist_mergeSort (fun _ _ _ => Std.TransCmp.isLE_trans) isLE_or_isLE hle hgroup

/-- Sorted copies of lists with the same occurrences agree place by place. -/
theorem SameOccurrences.forall₂_mergeSort {xs ys : List α} (h : SameOccurrences cmp xs ys) :
    List.Forall₂ (fun x y => cmp x y = .eq) (xs.mergeSort fun a b => (cmp a b).isLE)
      (ys.mergeSort fun a b => (cmp a b).isLE) := by
  have hxs := List.mergeSort_perm xs fun a b => (cmp a b).isLE
  have hys := List.mergeSort_perm ys fun a b => (cmp a b).isLE
  apply forall₂_of_ascending (ascending_mergeSort xs) (ascending_mergeSort ys)
  exact ((sameOccurrences_of_perm hxs).trans h).trans (sameOccurrences_of_perm hys.symm)

/-- Lists in which every value occurs equally often are equally long, since sorted they agree place
    by place. -/
theorem SameOccurrences.length_eq {xs ys : List α} (h : SameOccurrences cmp xs ys) :
    xs.length = ys.length := by
  have hlength := h.forall₂_mergeSort.length_eq
  rwa [List.length_mergeSort, List.length_mergeSort] at hlength

/-- Sorted copies agree place by place exactly if a rearrangement of one list agrees with the other
    as it is. -/
theorem forall₂_mergeSort_iff (xs ys : List α) :
    List.Forall₂ (fun x y => cmp x y = .eq) (xs.mergeSort fun a b => (cmp a b).isLE)
        (ys.mergeSort fun a b => (cmp a b).isLE) ↔
      ∃ zs, zs.Perm ys ∧ List.Forall₂ (fun x y => cmp x y = .eq) xs zs := by
  have hxs := List.mergeSort_perm xs fun a b => (cmp a b).isLE
  have hys := List.mergeSort_perm ys fun a b => (cmp a b).isLE
  constructor
  · intro h
    obtain ⟨zs, hzs, hperm⟩ := List.perm_comp_forall₂ hxs.symm h
    exact ⟨zs, hperm.trans hys, hzs⟩
  · rintro ⟨zs, hperm, hzs⟩
    exact ((sameOccurrences_of_forall₂ hzs).trans (sameOccurrences_of_perm hperm)).forall₂_mergeSort

end Bag

end ClauseEngine
