/-
Module: ClauseEngine.Proofs.Sequence.Congruence
Purpose: The operators on sequences respect structural equality. Sequences are equal exactly if
  every value occurs equally often in both, so an operator respects equality as soon as the
  occurrences in its result depend on the occurrences in its operands alone. Only the items of items
  need more: the outer sequences are rearranged, and the inner ones are equal one by one.
Main exports: Sequence.Agree, Value.order_seq_eq_iff_sameOccurrences, Sequence.asSeq_agree,
  Sequence.flatten_agree, Sequence.operators_respect_equality
-/
import ClauseEngine.Proofs.Result
import ClauseEngine.Proofs.Sequence.Distinct
import ClauseEngine.Proofs.Sequence.Multiplicity
import ClauseEngine.Proofs.Value.Equivalence

namespace ClauseEngine

/-! ### Equal sequences

Equality of sequences is restated in terms of occurrences, which is what the operators are known by.
-/

namespace Value

open Bag

/-- Sequences are equal exactly if every value occurs equally often in both. -/
theorem order_seq_eq_iff_sameOccurrences {xs ys : List Value} :
    order (.seq xs) (.seq ys) = .eq ↔ SameOccurrences order xs ys := by
  rw [order_seq, compareLex_eq_iff]
  constructor
  · intro h v
    have hsorted := sameOccurrences_of_forall₂ h v
    rwa [Sequence.occurrences_sort, Sequence.occurrences_sort] at hsorted
  · intro h
    exact h.forall₂_mergeSort

end Value

/-! ### Computations that agree

Two computations agree if both succeed, with related results, or both fail. They need not fail with
the same error, since an error may quote an operand. -/

namespace Sequence

open Bag
open Value (order)

/-- Both computations fail, or both succeed with values in a relation. -/
inductive Agree {α β : Type} (R : α → β → Prop) : Result α → Result β → Prop
  | failure (error error' : EvalError) : Agree R (.error error) (.error error')
  | success {a : α} {b : β} (h : R a b) : Agree R (.ok a) (.ok b)

namespace Agree

variable {α β γ δ : Type} {R : α → β → Prop} {S : γ → δ → Prop}

/-- Steps that agree on related results can be sequenced. -/
theorem bind {x : Result α} {y : Result β} {f : α → Result γ} {g : β → Result δ}
    (h : Agree R x y) (hstep : ∀ a b, R a b → Agree S (f a) (g b)) :
    Agree S (x >>= f) (y >>= g) := by
  cases h with
  | failure error error' => exact .failure error error'
  | success h => exact hstep _ _ h

/-- Agreement with a third computation composes the relations. -/
theorem trans {R' : β → γ → Prop} {x : Result α} {y : Result β} {z : Result γ}
    (h : Agree R x y) (h' : Agree R' y z) : Agree (Relation.Comp R R') x z := by
  cases h with
  | failure error error' =>
      cases h' with
      | failure _ error'' => exact .failure error error''
  | success h =>
      cases h' with
      | success h' => exact .success ⟨_, h, h'⟩

/-- Steps over two lists agree if the lists are related item by item. -/
theorem mapM {f : α → Result γ} {g : β → Result δ} {xs : List α} {ys : List β}
    (h : List.Forall₂ R xs ys) (hstep : ∀ a b, R a b → Agree S (f a) (g b)) :
    Agree (List.Forall₂ S) (xs.mapM f) (ys.mapM g) := by
  induction h with
  | nil => exact .success .nil
  | cons hhead _ ih =>
      rw [List.mapM_cons, List.mapM_cons]
      apply (hstep _ _ hhead).bind
      intro c d hcd
      apply ih.bind
      intro cs ds hrest
      exact .success (.cons hcd hrest)

/-- Steps over rearranged items fail together, or give rearranged values. -/
theorem mapM_perm {f : α → Result γ} {xs ys : List α} (h : xs.Perm ys) :
    Agree List.Perm (xs.mapM f) (ys.mapM f) := by
  cases hxs : xs.mapM f with
  | ok values =>
      obtain ⟨others, hothers, hperm⟩ :=
        List.perm_comp_forall₂ h.symm (mapM_eq_ok_iff.1 hxs)
      rw [mapM_eq_ok_iff.2 hothers]
      exact .success hperm.symm
  | error error =>
      cases hys : ys.mapM f with
      | ok values =>
          have hall := exists_mapM_eq_ok_iff.1 ⟨values, hys⟩
          obtain ⟨others, hothers⟩ := exists_mapM_eq_ok_iff.2 fun x hx => hall x (h.mem_iff.1 hx)
          rw [hxs] at hothers
          cases hothers
      | error error' => exact .failure error error'

end Agree

/-- Equal values are sequences with the same occurrences, or neither is a sequence. -/
theorem asSeq_agree {a b : Value} (h : order a b = .eq) :
    Agree (SameOccurrences order) a.asSeq b.asSeq := by
  have hkind := Value.kind_eq_of_order_eq h
  cases a with
  | seq xs =>
      cases b with
      | seq ys => exact .success (Value.order_seq_eq_iff_sameOccurrences.1 h)
      | _ => cases hkind
  | _ =>
      cases b with
      | seq ys => cases hkind
      | _ => exact .failure _ _

/-! ### One operator at a time

For each operator the occurrences in its result are known. It remains to see that they depend on the
occurrences in the operands only. -/

/-- Both computations fail, or both succeed with equal values. -/
abbrev AgreeUpToEqual : Result Value → Result Value → Prop :=
  Agree fun v w => Value.equal v w = true

/-- Sequences with the same occurrences agree. -/
theorem agree_seq {xs ys : List Value} (h : SameOccurrences order xs ys) :
    AgreeUpToEqual (.ok (.seq xs)) (.ok (.seq ys)) :=
  .success (Ordering.isEq_iff_eq_eq.2 (Value.order_seq_eq_iff_sameOccurrences.2 h))

theorem agree_refl (v : Value) : AgreeUpToEqual (.ok v) (.ok v) :=
  .success (Ordering.isEq_iff_eq_eq.2 Std.ReflCmp.compare_self)

section Operators

variable {a a' b b' : Value} (ha : order a a' = .eq) (hb : order b b' = .eq)

include ha

/-- A value occurs once or not at all, and which of the two depends on its occurrences. -/
theorem distinct_agree : AgreeUpToEqual (distinct a) (distinct a') := by
  apply (asSeq_agree ha).bind
  intro xs xs' hxs
  apply agree_seq
  intro v
  rw [firstOnly_nil, firstOnly_nil, occurrences_firsts, occurrences_firsts, hxs v]

/-- Sequences with the same occurrences are rearranged and therefore of one length. -/
theorem count_agree : AgreeUpToEqual (count a) (count a') := by
  apply (asSeq_agree ha).bind
  intro xs xs' hxs
  rw [hxs.length_eq]
  exact agree_refl _

/-- A sequence with one item only equals sequences with one equal item. -/
theorem singleton_agree : AgreeUpToEqual (singleton a) (singleton a') := by
  apply (asSeq_agree ha).bind
  intro xs xs' hxs
  have hlength := hxs.length_eq
  match xs, xs' with
  | [], [] => exact agree_refl _
  | [x], [y] =>
      have hpos : 0 < occurrences order x [y] := by
        rw [← hxs x]
        exact occurrences_self_pos x []
      obtain ⟨item, hitem, heq⟩ := occurrences_pos_iff.1 hpos
      rw [List.mem_singleton.1 hitem] at heq
      exact .success (Ordering.isEq_iff_eq_eq.2 heq)
  | _ :: _ :: _, _ :: _ :: _ => exact agree_refl _

/-- The outer sequences are the same up to a rearrangement and equal items, and then so are the
    items of the items. -/
theorem flatten_agree : AgreeUpToEqual (flatten a) (flatten a') := by
  apply (asSeq_agree ha).bind
  intro xs xs' hxs
  obtain ⟨zs, hperm, hitems⟩ :=
    (Value.order_seq_eq_iff xs xs').1 (Value.order_seq_eq_iff_sameOccurrences.2 hxs)
  have hequal : Agree (List.Forall₂ (SameOccurrences order)) (xs.mapM Value.asSeq)
      (zs.mapM Value.asSeq) := Agree.mapM hitems fun _ _ => asSeq_agree
  apply (hequal.trans (Agree.mapM_perm hperm)).bind
  rintro xss yss ⟨zss, hpairs, hrearranged⟩
  have hjoined := sameOccurrences_flatten hpairs
  exact agree_seq (hjoined.trans (sameOccurrences_of_perm hrearranged.flatten))

include hb

/-- Occurrences are added. -/
theorem union_agree : AgreeUpToEqual (union a b) (union a' b') := by
  apply (asSeq_agree ha).bind
  intro xs xs' hxs
  apply (asSeq_agree hb).bind
  intro ys ys' hys
  exact agree_seq (hxs.append hys)

/-- A bag operator whose counts depend on the counts of the operands respects equality. -/
theorem bagOperator_agree {f : List Value → List Value → List Value} {g : Nat → Nat → Nat}
    (hf : ∀ xs ys, Ascending order xs → Ascending order ys → ∀ v,
      occurrences order v (f xs ys) = g (occurrences order v xs) (occurrences order v ys)) :
    AgreeUpToEqual (bagOperator f a b) (bagOperator f a' b') := by
  apply (asSeq_agree ha).bind
  intro xs xs' hxs
  apply (asSeq_agree hb).bind
  intro ys ys' hys
  apply agree_seq
  intro v
  rw [hf _ _ (ascending_sort xs) (ascending_sort ys),
    hf _ _ (ascending_sort xs') (ascending_sort ys')]
  simp only [occurrences_sort, hxs v, hys v]

/-- A value is contained if it occurs at all. -/
theorem contains_agree : AgreeUpToEqual (contains a b) (contains a' b') := by
  apply (asSeq_agree hb).bind
  intro ys ys' hys
  have hany : ys.any (Value.equal · a) = ys'.any (Value.equal · a') := by
    rw [Bool.eq_iff_iff, any_equal_iff, any_equal_iff, occurrences_congr ha, hys a']
  rw [hany]
  exact agree_refl _

end Operators

/-- Operands that are equal, whatever the order of items at any depth, the offsets of date-times and
    the sign of a zero, make every operator fail on both sides or give equal results. -/
theorem operators_respect_equality (a a' b b' : Value) (ha : Value.equal a a' = true)
    (hb : Value.equal b b' = true) :
    (∀ f ∈ [union, minus, min, max, contains], AgreeUpToEqual (f a b) (f a' b')) ∧
      ∀ f ∈ [distinct, flatten, count, singleton], AgreeUpToEqual (f a) (f a') := by
  have ha : order a a' = .eq := Ordering.isEq_iff_eq_eq.1 ha
  have hb : order b b' = .eq := Ordering.isEq_iff_eq_eq.1 hb
  have hminus : AgreeUpToEqual (minus a b) (minus a' b') :=
    bagOperator_agree ha hb fun _ _ => occurrences_minus
  have hmin : AgreeUpToEqual (min a b) (min a' b') :=
    bagOperator_agree ha hb fun _ _ => occurrences_min
  have hmax : AgreeUpToEqual (max a b) (max a' b') :=
    bagOperator_agree ha hb fun _ _ => occurrences_max
  simp only [List.forall_mem_cons, List.not_mem_nil, false_implies, implies_true, and_true]
  exact ⟨⟨union_agree ha hb, hminus, hmin, hmax, contains_agree ha hb⟩,
    distinct_agree ha, flatten_agree ha, count_agree ha, singleton_agree ha⟩

/-- Inner and outer items in another order, one moment at two offsets, and both zeros. -/
theorem operators_respect_equality_of_rearranged :
    let midnight : DateTime := ⟨0, 0, by decide, by decide⟩
    let midnightElsewhere : DateTime := ⟨3600000000000, 60, by decide, by decide⟩
    let a := Value.seq [.seq [.dateTime midnight, .float ⟨0⟩], .seq [.nat 1, .nat 2]]
    let a' := Value.seq [.seq [.nat 2, .nat 1],
      .seq [.float ⟨0x8000000000000000⟩, .dateTime midnightElsewhere]]
    let b := Value.seq [.seq [.nat 1, .nat 2], .unit]
    let b' := Value.seq [.unit, .seq [.nat 2, .nat 1]]
    Value.equal a a' = true ∧ Value.equal b b' = true ∧
      (∀ f ∈ [union, minus, min, max, contains], AgreeUpToEqual (f a b) (f a' b')) ∧
      ∀ f ∈ [distinct, flatten, count, singleton], AgreeUpToEqual (f a) (f a') := by
  intro midnight midnightElsewhere a a' b b'
  have hswap {x x' y y' : Value} (hx : order x x' = .eq) (hy : order y y' = .eq) :
      order (.seq [x, y]) (.seq [y', x']) = .eq :=
    (Value.order_seq_eq_iff _ _).2 ⟨[x', y'], List.Perm.swap _ _ _, .cons hx (.cons hy .nil)⟩
  have hnumbers : order (.seq [.nat 1, .nat 2]) (.seq [.nat 2, .nat 1]) = .eq := hswap rfl rfl
  have hmixed : order (.seq [.dateTime midnight, .float ⟨0⟩])
      (.seq [.float ⟨0x8000000000000000⟩, .dateTime midnightElsewhere]) = .eq := hswap rfl rfl
  have ha : Value.equal a a' = true := Ordering.isEq_iff_eq_eq.2 (hswap hmixed hnumbers)
  have hb : Value.equal b b' = true := Ordering.isEq_iff_eq_eq.2 (hswap hnumbers rfl)
  exact ⟨ha, hb, operators_respect_equality a a' b b' ha hb⟩

end Sequence

end ClauseEngine
