/-
Module: ClauseEngine.Proofs.Value.Equivalence
Purpose: What structural equality means. The relation is given by rules that mention neither a sort
  nor a comparison: scalars are the same, sequences pair off after a rearrangement, records have the
  same names and related values. Equality decides it at every depth.
Main exports: Value.Equivalent, Value.order_record_eq_iff, Value.equal_iff_equivalent
-/
import ClauseEngine.Proofs.Bag
import ClauseEngine.Proofs.Double.Order
import ClauseEngine.Proofs.Value.Order

namespace ClauseEngine

namespace Value

/-- Equality of values up to the order of items, at every depth. -/
inductive Equivalent : Value → Value → Prop where
  | unit : Equivalent .unit .unit
  | bool (b : Bool) : Equivalent (.bool b) (.bool b)
  | nat (n : Int64) : Equivalent (.nat n) (.nat n)
  | float {x y : Double} (h : x.Same y) : Equivalent (.float x) (.float y)
  | str (s : String) : Equivalent (.str s) (.str s)
  | dateTime {s t : DateTime} (h : s.instant = t.instant) : Equivalent (.dateTime s) (.dateTime t)
  | seq {xs ys zs : List Value} (hperm : zs.Perm ys) (hitems : List.Forall₂ Equivalent xs zs) :
      Equivalent (.seq xs) (.seq ys)
  | record {a b : List (String × Value)}
      (hnames : ∀ name, (a.lookup name).isSome = (b.lookup name).isSome)
      (hvalues : ∀ name x y, a.lookup name = some x → b.lookup name = some y → Equivalent x y) :
      Equivalent (.record a) (.record b)
  | left {x y : Value} (h : Equivalent x y) : Equivalent (.left x) (.left y)
  | right {x y : Value} (h : Equivalent x y) : Equivalent (.right x) (.right y)
  | branded (brand : String) {a b : List (String × Value)}
      (hfields : Equivalent (.record a) (.record b)) :
      Equivalent (.branded brand a) (.branded brand b)

/-! ### Values of different kinds

Neither related values nor equal ones differ in kind. So only pairs of one kind have to be looked
at. -/

theorem Equivalent.kind_eq {v w : Value} (h : Equivalent v w) : v.kind = w.kind := by
  cases h <;> rfl

theorem kind_arrange (v : Value) : v.arrange.kind = v.kind := by
  cases v <;> rfl

theorem kind_eq_of_order_eq {v w : Value} (h : order v w = .eq) : v.kind = w.kind := by
  rw [← kind_arrange v, ← kind_arrange w]
  by_contra hne
  rw [order, orderArranged_of_kind_ne hne, Nat.compare_eq_eq] at h
  exact hne (rank_injective h)

/-- Equality decides the relation if it does so among values of a single kind. -/
theorem iff_of_kind {v w : Value}
    (h : v.kind = w.kind → (order v w = .eq ↔ Equivalent v w)) :
    order v w = .eq ↔ Equivalent v w :=
  ⟨fun heq => (h (kind_eq_of_order_eq heq)).1 heq, fun hequiv => (h hequiv.kind_eq).2 hequiv⟩

/-! ### Sequences

Sorted copies are compared item by item. If the items pair off then so do the sorted copies, and
both are rearrangements of the operands. -/

/-- A lexicographic comparison ends equal if the items are equal one by one. -/
theorem compareLex_eq_iff {xs ys : List Value} :
    List.compareLex order xs ys = .eq ↔ List.Forall₂ (fun x y => order x y = .eq) xs ys := by
  induction xs generalizing ys with
  | nil =>
      cases ys with
      | nil => simp [List.compareLex]
      | cons y ys => simp [List.compareLex]
  | cons x xs ih =>
      cases ys with
      | nil => simp [List.compareLex]
      | cons y ys => simp [List.compareLex_cons_cons, Ordering.then_eq_eq, ih]

/-- Sequences are equal exactly if they pair off after a rearrangement. -/
theorem order_seq_eq_iff (xs ys : List Value) :
    order (.seq xs) (.seq ys) = .eq ↔
      ∃ zs, zs.Perm ys ∧ List.Forall₂ (fun x z => order x z = .eq) xs zs := by
  rw [order_seq, compareLex_eq_iff]
  exact Bag.forall₂_mergeSort_iff xs ys

theorem seq_iff {xs ys : List Value}
    (h : ∀ x ∈ xs, ∀ y ∈ ys, order x y = .eq ↔ Equivalent x y) :
    order (.seq xs) (.seq ys) = .eq ↔ Equivalent (.seq xs) (.seq ys) := by
  rw [order_seq_eq_iff]
  have hpairs : ∀ {zs : List Value}, zs.Perm ys →
      (List.Forall₂ (fun x z => order x z = .eq) xs zs ↔ List.Forall₂ Equivalent xs zs) := by
    intro zs hperm
    rw [List.forall₂_iff_zip, List.forall₂_iff_zip]
    refine and_congr_right fun _ => forall₂_congr fun x z => forall_congr' fun hmem => ?_
    obtain ⟨hx, hz⟩ := List.of_mem_zip hmem
    exact h x hx z (hperm.mem_iff.1 hz)
  constructor
  · rintro ⟨zs, hperm, hitems⟩
    exact .seq hperm ((hpairs hperm).1 hitems)
  · intro hequiv
    cases hequiv with
    | seq hperm hitems => exact ⟨_, hperm, (hpairs hperm).2 hitems⟩

/-! ### Records

The walk along the names of both sides ends equal if each name is on both sides, with equal values.
-/

/-- The walk along names ends equal if both sides hold the same of them, with equal values. -/
theorem walkFields_eq_iff {a b : List (String × Value)} {names : List String} :
    walkFields a b names = .eq ↔ ∀ name ∈ names,
      (a.lookup name).isSome = (b.lookup name).isSome ∧
        ∀ x y, a.lookup name = some x → b.lookup name = some y → order x y = .eq := by
  induction names with
  | nil => simp [walkFields]
  | cons name rest ih =>
      rw [List.forall_mem_cons, ← ih, walkFields]
      cases ha : a.lookup name <;> cases hb : b.lookup name <;> simp [Ordering.then_eq_eq]

/-- Records are equal exactly if they have the same names and equal values under each. -/
theorem order_record_eq_iff {a b : List (String × Value)} (ha : Fields.Ordered a)
    (hb : Fields.Ordered b) :
    order (.record a) (.record b) = .eq ↔
      (∀ name, (a.lookup name).isSome = (b.lookup name).isSome) ∧
        ∀ name x y, a.lookup name = some x → b.lookup name = some y → order x y = .eq := by
  rw [order_record ha hb, walkFields_eq_iff, ← forall_and]
  refine forall_congr' fun name => ⟨fun h => ?_, fun h _ => h⟩
  by_cases hname : name ∈ namesOf a b
  · exact h hname
  · rw [mem_namesOf hb, not_or, Bool.not_eq_true, Bool.not_eq_true] at hname
    obtain ⟨hnone₁, hnone₂⟩ := hname
    refine ⟨hnone₁.trans hnone₂.symm, fun x y hx => ?_⟩
    rw [hx] at hnone₁
    cases hnone₁

theorem record_iff {a b : List (String × Value)} (ha : Fields.Ordered a) (hb : Fields.Ordered b)
    (h : ∀ field ∈ a, ∀ other ∈ b, order field.2 other.2 = .eq ↔ Equivalent field.2 other.2) :
    order (.record a) (.record b) = .eq ↔ Equivalent (.record a) (.record b) := by
  rw [order_record_eq_iff ha hb]
  have hvalue : ∀ {name : String} {x y : Value}, a.lookup name = some x → b.lookup name = some y →
      (order x y = .eq ↔ Equivalent x y) := fun hx hy =>
    h _ ((Fields.lookup_eq_some_iff ha).1 hx) _ ((Fields.lookup_eq_some_iff hb).1 hy)
  constructor
  · rintro ⟨hnames, hvalues⟩
    exact .record hnames fun name x y hx hy => (hvalue hx hy).1 (hvalues name x y hx hy)
  · intro hequiv
    cases hequiv with
    | record hnames hvalues =>
        exact ⟨hnames, fun name x y hx hy => (hvalue hx hy).2 (hvalues name x y hx hy)⟩

/-! ### All values -/

/-- The order takes two values for equal exactly if they are equivalent. The induction is on the
    first value; the kinds agree on either side, so each case has to do with one kind only. -/
theorem order_eq_iff_equivalent {v w : Value} (hv : v.Ordered) (hw : w.Ordered) :
    order v w = .eq ↔ Equivalent v w := by
  induction v using Value.induction generalizing w with
  | unit =>
      refine iff_of_kind fun hkind => ?_
      cases w with
      | unit =>
          exact ⟨fun _ => .unit, fun _ => rfl⟩
      | _ => cases hkind
  | bool x =>
      refine iff_of_kind fun hkind => ?_
      cases w with
      | bool y =>
          constructor
          · intro h
            obtain rfl : x = y := Std.LawfulEqOrd.eq_of_compare h
            exact .bool x
          · intro h
            cases h
            exact Std.ReflCmp.compare_self
      | _ => cases hkind
  | nat x =>
      refine iff_of_kind fun hkind => ?_
      cases w with
      | nat y =>
          constructor
          · intro h
            obtain rfl : x = y := Int64.toInt_inj.1 (Std.LawfulEqOrd.eq_of_compare h)
            exact .nat x
          · intro h
            cases h
            exact Std.ReflCmp.compare_self
      | _ => cases hkind
  | float x =>
      refine iff_of_kind fun hkind => ?_
      cases w with
      | float y =>
          constructor
          · intro h
            exact .float (Double.order_eq_iff_same.1 h)
          · intro h
            cases h with
            | float hsame => exact Double.order_eq_iff_same.2 hsame
      | _ => cases hkind
  | str x =>
      refine iff_of_kind fun hkind => ?_
      cases w with
      | str y =>
          constructor
          · intro h
            obtain rfl : x = y := Std.LawfulEqOrd.eq_of_compare h
            exact .str x
          · intro h
            cases h
            exact Std.ReflCmp.compare_self
      | _ => cases hkind
  | dateTime s =>
      refine iff_of_kind fun hkind => ?_
      cases w with
      | dateTime t =>
          constructor
          · intro h
            exact .dateTime (Std.LawfulEqOrd.eq_of_compare h)
          · intro h
            cases h with
            | dateTime hinstant => exact compare_eq_iff_eq.2 hinstant
      | _ => cases hkind
  | seq xs ih =>
      refine iff_of_kind fun hkind => ?_
      cases w with
      | seq ys =>
          have hxs := orderedItems_iff.1 hv
          have hys := orderedItems_iff.1 hw
          exact seq_iff fun x hx y hy => ih x hx (hxs x hx) (hys y hy)
      | _ => cases hkind
  | record a ih =>
      refine iff_of_kind fun hkind => ?_
      cases w with
      | record b =>
          have ha := orderedFields_iff.1 hv.2
          have hb := orderedFields_iff.1 hw.2
          exact record_iff hv.1 hw.1 fun field hfield other hother =>
            ih field hfield (ha field hfield) (hb other hother)
      | _ => cases hkind
  | left x ih =>
      refine iff_of_kind fun hkind => ?_
      cases w with
      | left y =>
          have hpayload : order x y = .eq ↔ Equivalent x y := ih hv hw
          constructor
          · intro h
            exact .left (hpayload.1 h)
          · intro h
            cases h with
            | left hequiv => exact hpayload.2 hequiv
      | _ => cases hkind
  | right x ih =>
      refine iff_of_kind fun hkind => ?_
      cases w with
      | right y =>
          have hpayload : order x y = .eq ↔ Equivalent x y := ih hv hw
          constructor
          · intro h
            exact .right (hpayload.1 h)
          · intro h
            cases h with
            | right hequiv => exact hpayload.2 hequiv
      | _ => cases hkind
  | branded brand a ih =>
      refine iff_of_kind fun hkind => ?_
      cases w with
      | branded other b =>
          have ha := orderedFields_iff.1 hv.2
          have hb := orderedFields_iff.1 hw.2
          have hfields : order (.record a) (.record b) = .eq ↔ Equivalent (.record a) (.record b) :=
            record_iff hv.1 hw.1 fun field hfield other hother =>
              ih field hfield (ha field hfield) (hb other hother)
          rw [order_branded, Ordering.then_eq_eq]
          constructor
          · rintro ⟨hbrand, h⟩
            obtain rfl : brand = other := Std.LawfulEqOrd.eq_of_compare hbrand
            exact .branded brand (hfields.1 h)
          · intro h
            cases h with
            | branded _ hequiv => exact ⟨Std.ReflCmp.compare_self, hfields.2 hequiv⟩
      | _ => cases hkind

/-- Structural equality decides equivalence, at every depth. -/
theorem equal_iff_equivalent (v w : Value) (hv : v.Ordered) (hw : w.Ordered) :
    equal v w = true ↔ Equivalent v w := by
  rw [← order_eq_iff_equivalent hv hw, equal, Ordering.isEq_iff_eq_eq]

/-- Items in another order, one level down too, and the other zero. -/
theorem equal_of_reordered_items :
    (Value.seq [.seq [.nat 1, .nat 2], .record [("rate", .float ⟨0⟩)]]).Ordered ∧
      (Value.seq [.record [("rate", .float ⟨0x8000000000000000⟩)], .seq [.nat 2, .nat 1]]).Ordered ∧
      equal (.seq [.seq [.nat 1, .nat 2], .record [("rate", .float ⟨0⟩)]])
        (.seq [.record [("rate", .float ⟨0x8000000000000000⟩)], .seq [.nat 2, .nat 1]]) = true := by
  have hv : (Value.seq [.seq [.nat 1, .nat 2], .record [("rate", .float ⟨0⟩)]]).Ordered := by
    simp [Ordered, OrderedItems, OrderedFields, Fields.Ordered]
  have hw : (Value.seq [.record [("rate", .float ⟨0x8000000000000000⟩)],
      .seq [.nat 2, .nat 1]]).Ordered := by
    simp [Ordered, OrderedItems, OrderedFields, Fields.Ordered]
  refine ⟨hv, hw, (equal_iff_equivalent _ _ hv hw).2 ?_⟩
  refine .seq (List.Perm.swap _ _ _) (.cons ?_ (.cons ?_ .nil))
  · exact .seq (List.Perm.swap _ _ _) (.cons (.nat 1) (.cons (.nat 2) .nil))
  · refine .record (fun name => ?_) fun name x y hx hy => ?_
    · by_cases hname : name = "rate" <;> simp [Fields.lookup_cons, hname]
    · by_cases hname : name = "rate"
      · simp only [Fields.lookup_cons, hname, if_true, Option.some.injEq] at hx hy
        subst hx hy
        exact .float (.zeros rfl rfl)
      · simp [Fields.lookup_cons, hname] at hx

end Value

end ClauseEngine
