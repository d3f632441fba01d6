/-
Module: ClauseEngine.Proofs.Primitive.Totals
Purpose: The sum of a sequence of whole numbers. A running total is kept from the left and has to fit
  at every step, so the sum is the exact one, and it overflows exactly if the exact sum of some
  first items does not fit. The order of the items decides on success only, never on the sum; numbers
  of one sign approach their total from one side, so that for them it decides nothing.
Main exports: Whole.numbers, Whole.total, Whole.RunsFit, Whole.runsFit_cons, Whole.sumFrom_cases,
  Whole.sum_cases, Whole.SameSign, Whole.runsFit_iff_of_sameSign, Whole.equal_numbers_iff,
  Whole.sum_exact
-/
import ClauseEngine.Primitive.Whole
import ClauseEngine.Proofs.Result
import ClauseEngine.Proofs.Value.Equivalence
import Mathlib.Algebra.BigOperators.Group.List.Basic
import Mathlib.Algebra.Order.BigOperators.Group.List
import Mathlib.Data.List.Infix

namespace ClauseEngine

namespace Whole

open Integer

/-- A sequence of whole numbers. -/
def numbers (ns : List Int64) : Value := .seq (ns.map .nat)

/-- The exact sum of whole numbers, whether or not a word holds it. -/
def total (ns : List Int64) : Int := (ns.map Int64.toInt).sum

/-- From a starting point on, the exact sum of any first items fits. -/
def RunsFit (start : Int) (ns : List Int64) : Prop :=
  ∀ first, first <+: ns → Fits (start + total first)

variable {ms ns : List Int64}

@[simp] theorem total_nil : total [] = 0 := rfl

@[simp] theorem total_cons (n : Int64) (ns : List Int64) : total (n :: ns) = n.toInt + total ns :=
  List.sum_cons

@[simp] theorem total_append (ms ns : List Int64) : total (ms ++ ns) = total ms + total ns := by
  rw [total, List.map_append, List.sum_append]
  rfl

/-- The exact sum does not depend on the order. -/
theorem total_eq_of_perm (h : ms.Perm ns) : total ms = total ns := (h.map _).sum_eq

/-! ### The running total

The induction is on the items, with the total so far as a parameter. The numbers fit along the way
if they do so from the next total on, which is the step of the sum. -/

/-- With no items left, the total itself has to fit. -/
theorem runsFit_nil {start : Int} : RunsFit start [] ↔ Fits start := by
  simp [RunsFit]

/-- One more item in front: the next running total has to fit, and the run goes on from there. -/
theorem runsFit_cons {start : Int} {n : Int64} (hstart : Fits start) :
    RunsFit start (n :: ns) ↔ Fits (start + n.toInt) ∧ RunsFit (start + n.toInt) ns := by
  constructor
  · intro h
    have hnext : RunsFit (start + n.toInt) ns := by
      intro first hfirst
      have hfits := h (n :: first) ((List.prefix_cons_inj n).2 hfirst)
      rwa [total_cons, ← Int.add_assoc] at hfits
    exact ⟨by simpa using hnext [] List.nil_prefix, hnext⟩
  · rintro ⟨-, hnext⟩ first hfirst
    rcases List.prefix_cons_iff.1 hfirst with rfl | ⟨rest, rfl, hrest⟩
    · simpa using hstart
    · rw [total_cons, ← Int.add_assoc]
      exact hnext rest hrest

/-- A step that fits goes on from the next running total. -/
theorem sumFrom_of_fits {start n : Int64} (rest : List Value) (h : Fits (start.toInt + n.toInt)) :
    sumFrom start (.nat n :: rest) = sumFrom (Int64.ofInt (start.toInt + n.toInt)) rest := by
  rw [sumFrom]
  simp only [Value.asNat, ok_bind, ofInt?_of_fits h]

/-- A total that does not fit ends the sum, whatever the other items are. -/
theorem sumFrom_of_not_fits {start n : Int64} (rest : List Value)
    (h : ¬ Fits (start.toInt + n.toInt)) :
    sumFrom start (.nat n :: rest) = .error (.overflow (.total "nat_sum")) := by
  rw [sumFrom]
  simp only [Value.asNat, ok_bind, ofInt?_of_not_fits h]

/-- The run either fits everywhere and ends with the exact sum, or it overflows. The induction is on
    the items, for every running total at once. -/
theorem sumFrom_cases (start : Int64) (ns : List Int64) :
    (RunsFit start.toInt ns ∧
      ∃ m : Int64, sumFrom start (ns.map .nat) = .ok m ∧ m.toInt = start.toInt + total ns) ∨
    (¬ RunsFit start.toInt ns ∧
      sumFrom start (ns.map .nat) = .error (.overflow (.total "nat_sum"))) := by
  induction ns generalizing start with
  | nil =>
      left
      exact ⟨runsFit_nil.2 (fits_toInt start), start, rfl, by simp⟩
  | cons n ns ih =>
      rw [runsFit_cons (fits_toInt start), List.map_cons]
      by_cases hfits : Fits (start.toInt + n.toInt)
      · have hnext := ih (Int64.ofInt (start.toInt + n.toInt))
        rw [toInt_ofInt hfits] at hnext
        rw [sumFrom_of_fits _ hfits, total_cons, ← Int.add_assoc]
        simpa only [hfits, true_and] using hnext
      · right
        exact ⟨fun h => hfits h.1, sumFrom_of_not_fits _ hfits⟩

/-- The sum is the exact one if it fits along the way, and an overflow if not. -/
theorem sum_cases (ns : List Int64) :
    (RunsFit 0 ns ∧ ∃ m : Int64, sum (numbers ns) = .ok (.nat m) ∧ m.toInt = total ns) ∨
    (¬ RunsFit 0 ns ∧ sum (numbers ns) = .error (.overflow (.total "nat_sum"))) := by
  have hsum : sum (numbers ns) = sumFrom 0 (ns.map .nat) >>= fun m => pure (.nat m) := rfl
  rcases sumFrom_cases 0 ns with ⟨hruns, m, hm, htotal⟩ | ⟨hruns, herror⟩
  · left
    refine ⟨hruns, m, ?_, ?_⟩
    · rw [hsum, hm]
      rfl
    · simpa using htotal
  · right
    refine ⟨hruns, ?_⟩
    rw [hsum, herror]
    rfl

/-- Success gives the exact sum. -/
theorem sum_eq_ok_iff {v : Value} :
    sum (numbers ns) = .ok v ↔ RunsFit 0 ns ∧ v = .nat (Int64.ofInt (total ns)) := by
  rcases sum_cases ns with ⟨hruns, m, hm, htotal⟩ | ⟨hruns, herror⟩
  · rw [hm, ← htotal, Int64.ofInt_toInt, Except.ok.injEq, eq_comm]
    simp [hruns]
  · simp [hruns, herror]

/-! ### Numbers of one sign

Such numbers move the total in one direction. If the first total and the last one fit then so do all
those between them, and these two do not depend on the order. -/

/-- No number is negative, or no number is positive. -/
def SameSign (ns : List Int64) : Prop := (∀ n ∈ ns, 0 ≤ n.toInt) ∨ ∀ n ∈ ns, n.toInt ≤ 0

theorem SameSign.of_perm (h : SameSign ns) (hperm : ms.Perm ns) : SameSign ms :=
  h.imp (fun h n hn => h n (hperm.mem_iff.1 hn)) fun h n hn => h n (hperm.mem_iff.1 hn)

theorem total_nonneg (h : ∀ n ∈ ns, 0 ≤ n.toInt) : 0 ≤ total ns :=
  List.sum_nonneg (by simpa using h)

theorem total_nonpos (h : ∀ n ∈ ns, n.toInt ≤ 0) : total ns ≤ 0 := by
  have hle : total ns ≤ (ns.map Int64.toInt).length • 0 :=
    List.sum_le_card_nsmul _ 0 (by simpa using h)
  rwa [nsmul_zero] at hle

/-- Numbers of one sign leave zero in one direction, so the last running total is the farthest. -/
theorem runsFit_iff_of_sameSign (h : SameSign ns) : RunsFit 0 ns ↔ Fits (total ns) := by
  constructor
  · intro hruns
    simpa using hruns ns List.prefix_rfl
  · rintro hfits first ⟨rest, rfl⟩
    rw [total_append] at hfits
    unfold Fits minInt maxInt at *
    rcases h with h | h
    · have hfirst : 0 ≤ total first := total_nonneg fun n hn => h n (List.mem_append_left _ hn)
      have hrest : 0 ≤ total rest := total_nonneg fun n hn => h n (List.mem_append_right _ hn)
      omega
    · have hfirst : total first ≤ 0 := total_nonpos fun n hn => h n (List.mem_append_left _ hn)
      have hrest : total rest ≤ 0 := total_nonpos fun n hn => h n (List.mem_append_right _ hn)
      omega

/-- For numbers of one sign the order decides nothing at all. -/
theorem sum_eq_of_perm (h : SameSign ns) (hperm : ms.Perm ns) :
    sum (numbers ms) = sum (numbers ns) := by
  have hruns : RunsFit 0 ms ↔ RunsFit 0 ns := by
    rw [runsFit_iff_of_sameSign h, runsFit_iff_of_sameSign (h.of_perm hperm), total_eq_of_perm hperm]
  rcases sum_cases ns with ⟨hfits, m, hm, -⟩ | ⟨hfits, herror⟩
  · rw [hm, sum_eq_ok_iff, hruns, total_eq_of_perm hperm]
    exact sum_eq_ok_iff.1 hm
  · rcases sum_cases ms with ⟨hfits', -⟩ | ⟨-, herror'⟩
    · exact absurd (hruns.1 hfits') hfits
    · rw [herror, herror']

/-! ### Sequences that the language takes for equal

Two sequences of numbers are equal in the language if one rearranges the other. So the order matters
to a sum even among equal operands. -/

theorem ordered_numbers (ns : List Int64) : (numbers ns).Ordered := by
  rw [numbers, Value.Ordered, Value.orderedItems_iff]
  simp [Value.Ordered]

/-- Sequences of numbers are equal exactly if one is a rearrangement of the other. -/
theorem equal_numbers_iff : Value.equal (numbers ms) (numbers ns) = true ↔ ms.Perm ns := by
  rw [Value.equal, Ordering.isEq_iff_eq_eq,
    Value.order_eq_iff_equivalent (ordered_numbers ms) (ordered_numbers ns), numbers, numbers]
  have hinjective : Function.Injective Value.nat := fun _ _ => Value.nat.inj
  constructor
  · intro h
    cases h with
    | @seq _ _ zs hperm hitems =>
        -- A number is equal to itself only, so the items that pair off are the same.
        have hsame : List.Forall₂ (· = ·) (ms.map Value.nat) zs := by
          rw [List.forall₂_map_left_iff] at hitems ⊢
          refine hitems.imp fun n v hv => ?_
          cases hv
          rfl
        rw [List.forall₂_eq_eq_eq] at hsame
        subst hsame
        exact (List.map_perm_map_iff hinjective).1 hperm
  · intro hperm
    refine .seq (hperm.map Value.nat) (List.forall₂_same.2 ?_)
    simp [Value.Equivalent.nat]

/-- The sum of any whole numbers. It is exact, and it overflows exactly if the exact sum of some first
    items does not fit. Of two rearrangements, which the language takes for equal sequences, both have
    the same sum if both have one. Numbers of one sign have a sum exactly if their total fits, and
    every rearrangement of them gives the same answer. -/
theorem sum_exact (ns : List Int64) :
    OverflowsUnless (∀ first, first <+: ns → Fits (total first))
      (fun v => ∃ m : Int64, v = .nat m ∧ m.toInt = total ns) (sum (numbers ns)) ∧
    (∀ ms : List Int64, Value.equal (numbers ms) (numbers ns) = true ↔ ms.Perm ns) ∧
    (∀ ms ms' : List Int64, ms.Perm ns → ms'.Perm ns → ∀ v v' : Value,
      sum (numbers ms) = .ok v → sum (numbers ms') = .ok v' → v = v') ∧
    (SameSign ns →
      ((∃ v, sum (numbers ns) = .ok v) ↔ Fits (total ns)) ∧
      ∀ ms : List Int64, ms.Perm ns → sum (numbers ms) = sum (numbers ns)) := by
  have hruns : (∀ first, first <+: ns → Fits (total first)) ↔ RunsFit 0 ns := by
    simp [RunsFit]
  refine ⟨?_, fun ms => equal_numbers_iff, ?_, fun h => ⟨?_, fun ms => sum_eq_of_perm h⟩⟩
  · rw [hruns]
    rcases sum_cases ns with ⟨hfits, m, hm, htotal⟩ | ⟨hfits, herror⟩
    · exact ⟨fun _ => ⟨_, hm, m, rfl, htotal⟩, fun h => absurd hfits h⟩
    · exact ⟨fun h => absurd h hfits, fun _ => ⟨_, herror⟩⟩
  · intro ms ms' hms hms' v v' hv hv'
    rw [sum_eq_ok_iff] at hv hv'
    rw [hv.2, hv'.2, total_eq_of_perm hms, total_eq_of_perm hms']
  · simp only [sum_eq_ok_iff, runsFit_iff_of_sameSign h, exists_and_left, exists_eq, and_true]

/-- The greatest number and then one more overflow, also if one is taken away afterwards; equal
    sequences that take it away before have the greatest number for their sum. Without a positive
    number the order is of no account. -/
theorem sum_exact_of_orders :
    let most : Int64 := 9223372036854775807
    Value.equal (numbers [most, 1, -1]) (numbers [most, -1, 1]) = true ∧
      (∃ error, sum (numbers [most, 1, -1]) = .error (.overflow error)) ∧
      (∃ v, sum (numbers [most, -1, 1]) = .ok v ∧ sum (numbers [-1, most, 1]) = .ok v) ∧
      SameSign [-5, 0, -7] ∧ sum (numbers [-7, 0, -5]) = sum (numbers [-5, 0, -7]) := by
  intro most
  obtain ⟨hlate, -, -, -⟩ := sum_exact [most, 1, -1]
  obtain ⟨hearly, hequal, hsame, -⟩ := sum_exact [most, -1, 1]
  obtain ⟨hfirst, -, -, -⟩ := sum_exact [-1, most, 1]
  obtain ⟨-, -, -, hsign⟩ := sum_exact [-5, 0, -7]
  have hnegative : SameSign [-5, 0, -7] := .inr (by simp)
  have hearlyFits : ∀ first ∈ [most, -1, 1].inits, Fits (total first) := by decide +kernel
  have hfirstFits : ∀ first ∈ [-1, most, 1].inits, Fits (total first) := by decide +kernel
  obtain ⟨v, hv, -⟩ := hearly.success fun first h => hearlyFits first ((List.mem_inits _ _).2 h)
  obtain ⟨v', hv', -⟩ := hfirst.success fun first h => hfirstFits first ((List.mem_inits _ _).2 h)
  obtain rfl : v = v' := hsame _ _ (.refl _) (by decide) v v' hv hv'
  refine ⟨(hequal _).2 (by decide), hlate.overflow fun h => ?_, ⟨v, hv, hv'⟩, hnegative,
    (hsign hnegative).2 _ (by decide)⟩
  exact absurd (h [most, 1] (List.prefix_append _ [-1])) (by decide +kernel)

end Whole

end ClauseEngine
