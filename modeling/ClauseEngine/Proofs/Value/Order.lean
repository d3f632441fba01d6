/-
Module: ClauseEngine.Proofs.Value.Order
Purpose: The order of values is a total preorder, and it is the order one expects: values of
  different kinds by the rank of the kind, sequences as ascending copies compared item by item,
  fields along the ascending names of both sides. Transitivity is proved in a form that survives
  lexicographic comparison: of three comparisons the third is determined by the first two.
Main exports: Value.Composes, Value.orderArranged_swap, Value.orderArranged_composes,
  Value.order_seq, Value.order_isTotalPreorder
-/
import ClauseEngine.Value.Order
import ClauseEngine.Proofs.Fields
import ClauseEngine.Proofs.Value.Basic

namespace ClauseEngine

instance : Std.TransCmp Double.order := inferInstanceAs (Std.TransCmp (compareOn Double.rank))

instance : Std.TransCmp DateTime.order :=
  inferInstanceAs (Std.TransCmp (compareOn DateTime.instant))

namespace Value

/-! ### Three comparisons that fit together

Transitivity alone does not pass through a lexicographic comparison, where a tie in the first place
has to be carried along. This form does. -/

/-- The comparisons of `a` with `b`, of `b` with `c` and of `a` with `c` fit together: if the first
    two do not descend, the third is the first of them that ascends. -/
def Composes (ab bc ac : Ordering) : Prop := ab.isLE → bc.isLE → ac = ab.then bc

/-- The comparisons of a lawful comparator fit together. -/
theorem composes_of_transCmp {α : Type} (cmp : α → α → Ordering) [Std.TransCmp cmp] (a b c : α) :
    Composes (cmp a b) (cmp b c) (cmp a c) := by
  intro hab hbc
  cases h : cmp a b with
  | lt => exact Std.TransCmp.lt_of_lt_of_isLE h hbc
  | eq => exact Std.TransCmp.congr_left h
  | gt => simp [h] at hab

/-- Lexicographic comparison keeps comparisons fitting together. The second parts matter only where
    the first ones are equal. -/
theorem Composes.lexicographic {ab bc ac ab' bc' ac' : Ordering} (h : Composes ab bc ac)
    (h' : ab = .eq → bc = .eq → Composes ab' bc' ac') :
    Composes (ab.then ab') (bc.then bc') (ac.then ac') := by
  intro hab hbc
  cases ab with
  | lt =>
      have hbc₁ : bc.isLE := by cases bc <;> simp_all
      simp [h rfl hbc₁]
  | eq =>
      cases bc with
      | lt =>
          have hac := h rfl rfl
          cases ab' <;> simp_all
      | eq =>
          have hac := h rfl rfl
          simpa [hac] using h' rfl rfl hab hbc
      | gt => simp at hbc
  | gt => simp at hab

/-! ### Values of different kinds

Comparing ranks comes first. What remains to be shown of a law are the triples and pairs of one
kind. -/

/-- Kinds are told apart by their ranks. -/
theorem rank_injective {k l : Kind} (h : k.rank = l.rank) : k = l := by
  cases k <;> cases l <;> first | rfl | cases h

/-- Values of different kinds compare by kind. -/
theorem orderArranged_of_kind_ne {a b : Value} (h : a.kind ≠ b.kind) :
    orderArranged a b = compare a.kind.rank b.kind.rank := by
  cases a <;> cases b <;> first | rfl | exact absurd rfl h

/-- A value of a lower rank comes first. -/
theorem orderArranged_of_rank_lt {a b : Value} (h : a.kind.rank < b.kind.rank) :
    orderArranged a b = .lt := by
  have hne : a.kind ≠ b.kind := by
    intro heq
    rw [heq] at h
    exact Nat.lt_irrefl _ h
  rw [orderArranged_of_kind_ne hne]
  exact Nat.compare_eq_lt.2 h

/-- A value that comes first, or is equal, has no greater rank. -/
theorem rank_le_of_isLE {a b : Value} (h : (orderArranged a b).isLE) :
    a.kind.rank ≤ b.kind.rank := by
  by_cases hkind : a.kind = b.kind
  · exact Nat.le_of_eq (congrArg Kind.rank hkind)
  · rw [orderArranged_of_kind_ne hkind] at h
    exact Nat.isLE_compare.1 h

/-- Comparisons fit together if they do so among values of a single kind. -/
theorem composes_of_kind {a b c : Value}
    (h : a.kind = b.kind → b.kind = c.kind →
      Composes (orderArranged a b) (orderArranged b c) (orderArranged a c)) :
    Composes (orderArranged a b) (orderArranged b c) (orderArranged a c) := by
  intro hab hbc
  have hrank₁ := rank_le_of_isLE hab
  have hrank₂ := rank_le_of_isLE hbc
  rcases Nat.lt_or_eq_of_le hrank₁ with hlt | heq₁
  · have hac : a.kind.rank < c.kind.rank := by omega
    rw [orderArranged_of_rank_lt hac, orderArranged_of_rank_lt hlt]
    rfl
  · rcases Nat.lt_or_eq_of_le hrank₂ with hlt | heq₂
    · have hac : a.kind.rank < c.kind.rank := by omega
      rw [orderArranged_of_rank_lt hac, orderArranged_of_rank_lt hlt]
      cases horder : orderArranged a b <;> simp_all
    · exact h (rank_injective heq₁) (rank_injective heq₂) hab hbc

/-- A comparison turns round with its sides if it does so among values of a single kind. -/
theorem swap_of_kind {a b : Value}
    (h : a.kind = b.kind → orderArranged a b = (orderArranged b a).swap) :
    orderArranged a b = (orderArranged b a).swap := by
  by_cases hkind : a.kind = b.kind
  · exact h hkind
  · rw [orderArranged_of_kind_ne hkind, orderArranged_of_kind_ne (Ne.symm hkind)]
    exact Std.OrientedOrd.eq_swap

/-! ### The laws of the order of arranged values

The inductions are on the first value. Items and fields are compared by lexicographic walks, which
have the laws if the comparisons of their parts have. -/

/-- Comparing items the other way round gives the opposite answer. -/
theorem orderItems_swap {as : List Value}
    (h : ∀ a ∈ as, ∀ b, orderArranged a b = (orderArranged b a).swap) (bs : List Value) :
    orderItems as bs = (orderItems bs as).swap := by
  induction as generalizing bs with
  | nil => cases bs <;> rfl
  | cons a as ih =>
      cases bs with
      | nil => rfl
      | cons b bs =>
          have hhead := h a List.mem_cons_self b
          have htail := ih (fun x hx => h x (List.mem_cons_of_mem _ hx)) bs
          simp only [orderItems, hhead, htail, Ordering.swap_then]

/-- So does comparing fields. -/
theorem orderFields_swap {as : List (String × Value)}
    (h : ∀ a ∈ as, ∀ b, orderArranged a.2 b = (orderArranged b a.2).swap)
    (bs : List (String × Value)) : orderFields as bs = (orderFields bs as).swap := by
  induction as generalizing bs with
  | nil => cases bs <;> rfl
  | cons a as ih =>
      cases bs with
      | nil => rfl
      | cons b bs =>
          have hname : compare a.1 b.1 = (compare b.1 a.1).swap := Std.OrientedOrd.eq_swap
          have hhead := h a List.mem_cons_self b.2
          have htail := ih (fun x hx => h x (List.mem_cons_of_mem _ hx)) bs
          simp only [orderFields, hname, hhead, htail, Ordering.swap_then]

/-- Exchanging the sides turns a comparison round. -/
theorem orderArranged_swap (a b : Value) : orderArranged a b = (orderArranged b a).swap := by
  induction a using Value.induction generalizing b with
  | unit =>
      refine swap_of_kind fun hkind => ?_
      cases b with
      | unit => rfl
      | _ => cases hkind
  | bool x =>
      refine swap_of_kind fun hkind => ?_
      cases b with
      | bool y => exact Std.OrientedOrd.eq_swap
      | _ => cases hkind
  | nat x =>
      refine swap_of_kind fun hkind => ?_
      cases b with
      | nat y => exact Std.OrientedOrd.eq_swap
      | _ => cases hkind
  | float x =>
      refine swap_of_kind fun hkind => ?_
      cases b with
      | float y => exact Std.OrientedOrd.eq_swap
      | _ => cases hkind
  | str x =>
      refine swap_of_kind fun hkind => ?_
      cases b with
      | str y => exact Std.OrientedOrd.eq_swap
      | _ => cases hkind
  | dateTime x =>
      refine swap_of_kind fun hkind => ?_
      cases b with
      | dateTime y => exact Std.OrientedOrd.eq_swap
      | _ => cases hkind
  | seq xs ih =>
      refine swap_of_kind fun hkind => ?_
      cases b with
      | seq ys => exact orderItems_swap ih ys
      | _ => cases hkind
  | record xs ih =>
      refine swap_of_kind fun hkind => ?_
      cases b with
      | record ys => exact orderFields_swap ih ys
      | _ => cases hkind
  | left x ih =>
      refine swap_of_kind fun hkind => ?_
      cases b with
      | left y => exact ih y
      | _ => cases hkind
  | right x ih =>
      refine swap_of_kind fun hkind => ?_
      cases b with
      | right y => exact ih y
      | _ => cases hkind
  | branded brand xs ih =>
      refine swap_of_kind fun hkind => ?_
      cases b with
      | branded other ys =>
          have hbrand : compare brand other = (compare other brand).swap :=
            Std.OrientedOrd.eq_swap
          simp only [orderArranged, hbrand, orderFields_swap ih ys, Ordering.swap_then]
      | _ => cases hkind

/-- Three comparisons of items fit together if those of their parts do. -/
theorem orderItems_composes {as : List Value}
    (h : ∀ a ∈ as, ∀ b c,
      Composes (orderArranged a b) (orderArranged b c) (orderArranged a c))
    (bs cs : List Value) :
    Composes (orderItems as bs) (orderItems bs cs) (orderItems as cs) := by
  induction as generalizing bs cs with
  | nil =>
      intro hab hbc
      cases bs <;> cases cs <;> simp_all [orderItems]
  | cons a as ih =>
      cases bs with
      | nil =>
          intro hab
          simp [orderItems] at hab
      | cons b bs =>
          cases cs with
          | nil =>
              intro _ hbc
              simp [orderItems] at hbc
          | cons c cs =>
              have hhead := h a List.mem_cons_self b c
              have htail := ih (fun x hx => h x (List.mem_cons_of_mem _ hx)) bs cs
              exact hhead.lexicographic fun _ _ => htail

/-- The end of a list of fields comes after every field, the other way round than with items. -/
theorem orderFields_composes {as : List (String × Value)}
    (h : ∀ a ∈ as, ∀ b c,
      Composes (orderArranged a.2 b) (orderArranged b c) (orderArranged a.2 c))
    (bs cs : List (String × Value)) :
    Composes (orderFields as bs) (orderFields bs cs) (orderFields as cs) := by
  induction as generalizing bs cs with
  | nil =>
      intro hab hbc
      cases bs <;> cases cs <;> simp_all [orderFields]
  | cons a as ih =>
      cases bs with
      | nil =>
          intro _ hbc
          cases cs <;> simp_all [orderFields]
      | cons b bs =>
          cases cs with
          | nil =>
              intro hab hbc
              cases hfirst : orderFields (a :: as) (b :: bs) <;> simp_all [orderFields]
          | cons c cs =>
              have hhead := h a List.mem_cons_self b.2 c.2
              have htail := ih (fun x hx => h x (List.mem_cons_of_mem _ hx)) bs cs
              exact (composes_of_transCmp compare a.1 b.1 c.1).lexicographic fun _ _ =>
                hhead.lexicographic fun _ _ => htail

/-- Of three comparisons along a chain the third is determined by the first two. -/
theorem orderArranged_composes (a b c : Value) :
    Composes (orderArranged a b) (orderArranged b c) (orderArranged a c) := by
  induction a using Value.induction generalizing b c with
  | unit =>
      refine composes_of_kind fun hab hbc => ?_
      cases b with
      | unit =>
          cases c with
          | unit => exact fun _ _ => rfl
          | _ => cases hbc
      | _ => cases hab
  | bool x =>
      refine composes_of_kind fun hab hbc => ?_
      cases b with
      | bool y =>
          cases c with
          | bool z => exact composes_of_transCmp compare x y z
          | _ => cases hbc
      | _ => cases hab
  | str x =>
      refine composes_of_kind fun hab hbc => ?_
      cases b with
      | str y =>
          cases c with
          | str z => exact composes_of_transCmp compare x y z
          | _ => cases hbc
      | _ => cases hab
  | nat x =>
      refine composes_of_kind fun hab hbc => ?_
      cases b with
      | nat y =>
          cases c with
          | nat z => exact composes_of_transCmp compare x.toInt y.toInt z.toInt
          | _ => cases hbc
      | _ => cases hab
  | float x =>
      refine composes_of_kind fun hab hbc => ?_
      cases b with
      | float y =>
          cases c with
          | float z => exact composes_of_transCmp Double.order x y z
          | _ => cases hbc
      | _ => cases hab
  | dateTime x =>
      refine composes_of_kind fun hab hbc => ?_
      cases b with
      | dateTime y =>
          cases c with
          | dateTime z => exact composes_of_transCmp DateTime.order x y z
          | _ => cases hbc
      | _ => cases hab
  | seq xs ih =>
      refine composes_of_kind fun hab hbc => ?_
      cases b with
      | seq ys =>
          cases c with
          | seq zs => exact orderItems_composes ih ys zs
          | _ => cases hbc
      | _ => cases hab
  | record xs ih =>
      refine composes_of_kind fun hab hbc => ?_
      cases b with
      | record ys =>
          cases c with
          | record zs => exact orderFields_composes ih ys zs
          | _ => cases hbc
      | _ => cases hab
  | left x ih =>
      refine composes_of_kind fun hab hbc => ?_
      cases b with
      | left y =>
          cases c with
          | left z => exact ih y z
          | _ => cases hbc
      | _ => cases hab
  | right x ih =>
      refine composes_of_kind fun hab hbc => ?_
      cases b with
      | right y =>
          cases c with
          | right z => exact ih y z
          | _ => cases hbc
      | _ => cases hab
  | branded brand xs ih =>
      refine composes_of_kind fun hab hbc => ?_
      cases b with
      | branded second ys =>
          cases c with
          | branded third zs =>
              exact (composes_of_transCmp compare brand second third).lexicographic fun _ _ =>
                orderFields_composes ih ys zs
          | _ => cases hbc
      | _ => cases hab

instance : Std.TransCmp orderArranged where
  eq_swap := orderArranged_swap _ _
  isLE_trans {a b c} hab hbc := by
    rw [orderArranged_composes a b c hab hbc]
    cases hfirst : orderArranged a b <;> simp_all

instance : Std.TransCmp order where
  eq_swap := orderArranged_swap _ _
  isLE_trans := (inferInstance : Std.TransCmp orderArranged).isLE_trans

/-! ### The order of values, kind by kind

Arranging sorts the items at every depth beforehand. These equations say what it comes to at the
top: the items are sorted by the order itself, and the walk over two lists of fields goes along the
names of both. -/

theorem arrangeItems_eq_map (items : List Value) : arrangeItems items = items.map arrange := by
  induction items with
  | nil => rfl
  | cons item rest ih => rw [arrangeItems, ih, List.map_cons]

/-- Sorting and arranging may be exchanged. -/
theorem map_arrange_sort (items : List Value) :
    (sort items).map arrange =
      (items.map arrange).mergeSort fun a b => (orderArranged a b).isLE :=
  List.map_mergeSort fun _ _ _ _ => rfl

/-- Comparing arranged items is comparing the items by the order. -/
theorem orderItems_map_arrange (xs ys : List Value) :
    orderItems (xs.map arrange) (ys.map arrange) = List.compareLex order xs ys := by
  induction xs generalizing ys with
  | nil => cases ys <;> rfl
  | cons x xs ih =>
      cases ys with
      | nil => rfl
      | cons y ys =>
          simp only [List.map_cons, orderItems, ih, List.compareLex_cons_cons]
          rfl

/-- Sequences compare as ascending copies, item by item. The copies are sorted by the order itself,
    and so are the sequences inside their items. -/
theorem order_seq (xs ys : List Value) :
    order (.seq xs) (.seq ys) = List.compareLex order (sort xs) (sort ys) := by
  rw [← orderItems_map_arrange, map_arrange_sort, map_arrange_sort, ← arrangeItems_eq_map,
    ← arrangeItems_eq_map]
  rfl

/-- Compare two collections of fields along some names: a field comes before none, and fields of
    the same name compare by value. -/
def walkFields (a b : List (String × Value)) : List String → Ordering
  | [] => .eq
  | name :: rest =>
      match a.lookup name, b.lookup name with
      | some x, some y => (order x y).then (walkFields a b rest)
      | some _, none => .lt
      | none, some _ => .gt
      | none, none => walkFields a b rest

/-- The names after the first ones do not see the first fields. -/
theorem walkFields_cons {x : String} {u v : Value} {as bs : List (String × Value)}
    {names : List String} (h : ∀ name ∈ names, x < name) :
    walkFields ((x, u) :: as) ((x, v) :: bs) names = walkFields as bs names := by
  induction names with
  | nil => rfl
  | cons name rest ih =>
      have hne : name ≠ x := (h name List.mem_cons_self).ne'
      have hrest := ih fun other hother => h other (List.mem_cons_of_mem _ hother)
      simp only [walkFields, Fields.lookup_cons, if_neg hne, hrest]

/-- The first name of ascending fields is the least. -/
theorem le_of_lookup_isSome {x : String} {u : Value} {as : List (String × Value)}
    (h : Fields.Ordered ((x, u) :: as)) {name : String}
    (hname : (((x, u) :: as).lookup name).isSome) : x ≤ name := by
  by_contra hlt
  have hnone : ((x, u) :: as).lookup name = none := by
    refine Fields.lookup_eq_none_of_lt fun field hfield => ?_
    rcases List.mem_cons.1 hfield with rfl | hfield
    · exact not_le.1 hlt
    · exact (not_le.1 hlt).trans ((List.pairwise_cons.1 h).1 field hfield)
  simp [hnone] at hname

/-- Comparing two ascending collections of fields is walking the ascending names of both. -/
theorem orderFields_eq_walkFields {as bs : List (String × Value)} (has : Fields.Ordered as)
    (hbs : Fields.Ordered bs) {names : List String} (hnames : names.Pairwise (· < ·))
    (hmem : ∀ name, name ∈ names ↔ (as.lookup name).isSome ∨ (bs.lookup name).isSome) :
    orderFields (arrangeFields as) (arrangeFields bs) = walkFields as bs names := by
  induction names generalizing as bs with
  | nil =>
      cases as with
      | nil =>
          cases bs with
          | nil => rfl
          | cons b bs => simpa using (hmem b.1).2 (Or.inr (by simp))
      | cons a as => simpa using (hmem a.1).2 (Or.inl (by simp))
  | cons name rest ih =>
      obtain ⟨hfirst, hrest⟩ := List.pairwise_cons.1 hnames
      have hleast : ∀ other ∈ name :: rest, name ≤ other := by
        intro other hother
        rcases List.mem_cons.1 hother with rfl | hother
        · exact le_refl _
        · exact (hfirst other hother).le
      have hsome := (hmem name).1 List.mem_cons_self
      match as, bs with
      | [], [] => simp at hsome
      | [], (y, v) :: bs =>
          have hb : (((y, v) :: bs).lookup name).isSome := by simpa using hsome
          obtain ⟨found, hfound⟩ := Option.isSome_iff_exists.1 hb
          simp [walkFields, hfound, arrangeFields, orderFields]
      | (x, u) :: as, [] =>
          have ha : (((x, u) :: as).lookup name).isSome := by simpa using hsome
          obtain ⟨found, hfound⟩ := Option.isSome_iff_exists.1 ha
          simp [walkFields, hfound, arrangeFields, orderFields]
      | (x, u) :: as, (y, v) :: bs =>
          have hx : name ≤ x := hleast x ((hmem x).2 (Or.inl (by simp)))
          have hy : name ≤ y := hleast y ((hmem y).2 (Or.inr (by simp)))
          have hname := hsome.imp (le_of_lookup_isSome has) (le_of_lookup_isSome hbs)
          obtain ⟨hbelow₁, hrest₁⟩ := List.pairwise_cons.1 has
          obtain ⟨hbelow₂, hrest₂⟩ := List.pairwise_cons.1 hbs
          rcases lt_trichotomy x y with hlt | rfl | hgt
          · obtain rfl : name = x := hx.antisymm (hname.elim id fun h => hlt.le.trans h)
            have hnone : ((y, v) :: bs).lookup name = none := by
              rw [Fields.lookup_cons, if_neg hlt.ne]
              exact Fields.lookup_eq_none_of_lt fun field hfield => hlt.trans (hbelow₂ field hfield)
            have horder : compare name y = .lt := compare_lt_iff_lt.2 hlt
            simp [arrangeFields, orderFields, horder, walkFields, hnone]
          · obtain rfl : name = x := hx.antisymm (hname.elim id id)
            have htail : orderFields (arrangeFields as) (arrangeFields bs) =
                walkFields as bs rest := by
              refine ih hrest₁ hrest₂ hrest fun other => ?_
              have hother := hmem other
              rw [List.mem_cons, Fields.lookup_cons, Fields.lookup_cons] at hother
              by_cases heq : other = name
              · subst heq
                simpa [Fields.lookup_eq_none_of_lt hbelow₁, Fields.lookup_eq_none_of_lt hbelow₂]
                  using fun h => lt_irrefl _ (hfirst other h)
              · simpa [heq] using hother
            have horder : compare name name = .eq := Std.ReflCmp.compare_self
            simp only [arrangeFields, orderFields, horder, walkFields, Fields.lookup_cons, if_true,
              htail, walkFields_cons hfirst]
            rfl
          · obtain rfl : name = y := hy.antisymm (hname.elim (fun h => hgt.le.trans h) id)
            have hnone : ((x, u) :: as).lookup name = none := by
              rw [Fields.lookup_cons, if_neg hgt.ne]
              exact Fields.lookup_eq_none_of_lt fun field hfield => hgt.trans (hbelow₁ field hfield)
            have horder : compare x name = .gt := compare_gt_iff_gt.2 hgt
            simp [arrangeFields, orderFields, horder, walkFields, hnone]

/-- The names of two collections of fields, ascending. -/
def namesOf (a b : List (String × Value)) : List String := (Fields.overlay a b).map (·.1)

/-- The walk goes along all names of both sides. -/
theorem mem_namesOf {a b : List (String × Value)} (hb : Fields.Ordered b) {name : String} :
    name ∈ namesOf a b ↔ (a.lookup name).isSome ∨ (b.lookup name).isSome := by
  rw [namesOf, Fields.mem_names, Fields.lookup_overlay hb, Option.isSome_or, Bool.or_eq_true,
    or_comm]

/-- Records compare along the ascending names of both. -/
theorem order_record {a b : List (String × Value)} (ha : Fields.Ordered a)
    (hb : Fields.Ordered b) : order (.record a) (.record b) = walkFields a b (namesOf a b) :=
  orderFields_eq_walkFields ha hb (List.pairwise_map.2 (Fields.ordered_overlay ha b)) fun _ =>
    mem_namesOf hb

/-- Branded values compare by brand and then as records. -/
theorem order_branded (x y : String) (a b : List (String × Value)) :
    order (.branded x a) (.branded y b) = (compare x y).then (order (.record a) (.record b)) :=
  rfl

/-! ### The order is a total preorder

The laws of arranged values are those of all values, since the order compares arranged copies. -/

/-- The order of values is reflexive, turns round with its sides, is transitive, and does not tell
    apart values that compare equal. -/
theorem order_isTotalPreorder (a b c : Value) :
    order a a = .eq ∧
      order a b = (order b a).swap ∧
      (order a b ≠ .gt → order b c ≠ .gt → order a c ≠ .gt) ∧
      (order a b = .eq → order a c = order b c) := by
  refine ⟨Std.ReflCmp.compare_self, Std.OrientedCmp.eq_swap, fun hab hbc => ?_,
    Std.TransCmp.congr_left⟩
  have hac := Std.TransCmp.isLE_trans (Ordering.ne_gt_iff_isLE.1 hab)
    (Ordering.ne_gt_iff_isLE.1 hbc)
  exact Ordering.ne_gt_iff_isLE.2 hac

end Value

end ClauseEngine
