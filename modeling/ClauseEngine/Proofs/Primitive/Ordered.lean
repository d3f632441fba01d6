/-
Module: ClauseEngine.Proofs.Primitive.Ordered
Purpose: Operators keep fields in order. Most of them yield scalars; the others yield items or sides
  of their operands, or durations.
Main exports: Operation.KeepsOrder, Primitive.operation_keepsOrder, Primitive.apply_ordered
-/
import ClauseEngine.Primitive.Table
import ClauseEngine.Proofs.Result
import ClauseEngine.Proofs.Sequence.Distinct
import ClauseEngine.Proofs.Sequence.Multiplicity
import ClauseEngine.Proofs.Value.Basic

namespace ClauseEngine

/-- If the computation succeeds, its value has its fields in order. -/
abbrev OrderedValue (r : Result Value) : Prop := Yields Value.Ordered r

/-! ### Scalars

A scalar has no fields. The operators that yield scalars need nothing to be known of their operands.
-/

namespace Value

@[simp] theorem ordered_unit : Ordered .unit := trivial

@[simp] theorem ordered_bool (b : Bool) : Ordered (.bool b) := trivial

@[simp] theorem ordered_nat (n : Int64) : Ordered (.nat n) := trivial

@[simp] theorem ordered_float (x : Double) : Ordered (.float x) := trivial

@[simp] theorem ordered_str (s : String) : Ordered (.str s) := trivial

@[simp] theorem ordered_dateTime (t : DateTime) : Ordered (.dateTime t) := trivial

@[simp] theorem ordered_left {v : Value} : Ordered (.left v) ↔ v.Ordered := Iff.rfl

@[simp] theorem ordered_right {v : Value} : Ordered (.right v) ↔ v.Ordered := Iff.rfl

@[simp] theorem ordered_seq {items : List Value} :
    Ordered (.seq items) ↔ ∀ item ∈ items, item.Ordered := orderedItems_iff

/-- The items of a sequence in order are in order. -/
theorem asSeq_yields {v : Value} (hv : v.Ordered) :
    Yields (∀ item ∈ ·, Ordered item) v.asSeq := by
  cases v with
  | seq items => exact yields_ok.2 (ordered_seq.1 hv)
  | _ => exact yields_error _

end Value

@[simp] theorem Whole.checked_ordered (z : Int) (error : Overflow) :
    OrderedValue (Whole.checked z error) := by
  simp [Whole.checked]

@[simp] theorem Whole.ofFloat_ordered (a : Value) : OrderedValue (Whole.ofFloat a) := by
  rw [OrderedValue, Whole.ofFloat, yields_bind]
  intro x _
  split <;> simp

@[simp] theorem Text.ofValue_ordered (v : Value) : OrderedValue (Text.ofValue v) := by
  unfold Text.ofValue
  split <;> simp

/-! ### Items of operands

The operators on sequences move items around and leave out some. An item of the result is an item of
an operand, or an item of an item. -/

namespace Sequence

variable {a b : Value}

theorem union_ordered (ha : a.Ordered) (hb : b.Ordered) : OrderedValue (union a b) := by
  simp only [OrderedValue, union, yields_bind, yields_pure, Value.ordered_seq]
  refine (Value.asSeq_yields ha).mono fun xs hxs => (Value.asSeq_yields hb).mono fun ys hys => ?_
  exact List.forall_mem_append.2 ⟨hxs, hys⟩

/-- A bag operator that makes up no items of its own keeps fields in order. -/
theorem bagOperator_ordered {f : List Value → List Value → List Value}
    (hf : ∀ {xs ys : List Value} {x : Value}, x ∈ f xs ys → x ∈ xs ∨ x ∈ ys) (ha : a.Ordered)
    (hb : b.Ordered) : OrderedValue (bagOperator f a b) := by
  simp only [OrderedValue, bagOperator, yields_bind, yields_pure, Value.ordered_seq]
  refine (Value.asSeq_yields ha).mono fun xs hxs => (Value.asSeq_yields hb).mono fun ys hys => ?_
  intro x hx
  rcases hf hx with hx | hx
  · exact hxs x (List.mem_mergeSort.1 hx)
  · exact hys x (List.mem_mergeSort.1 hx)

theorem distinct_ordered (ha : a.Ordered) : OrderedValue (distinct a) := by
  simp only [OrderedValue, distinct, yields_bind, yields_pure, Value.ordered_seq]
  exact (Value.asSeq_yields ha).mono fun items hitems x hx =>
    hitems x ((firstOnly_sublist [] items).mem hx)

/-- Sorting pairs items with keys and drops the keys again, so its items are those given. -/
theorem sort_ordered (hb : b.Ordered) : OrderedValue (sort a b) := by
  simp only [OrderedValue, sort, yields_bind, yields_pure, Value.ordered_seq]
  intro criteria _ criteria' _
  refine (Value.asSeq_yields hb).mono fun items hitems => ?_
  have hkeyed : Yields (∀ pair ∈ ·, pair.2.Ordered) (items.mapM fun item => do
      return ((← criteria'.mapM fun c => c.key item), item)) := by
    refine yields_mapM fun item hitem => ?_
    simp [hitems item hitem]
  refine hkeyed.mono fun keyed hpairs x hx => ?_
  obtain ⟨pair, hpair, rfl⟩ := List.mem_map.1 hx
  exact hpairs pair (List.mem_mergeSort.1 hpair)

theorem flatten_ordered (ha : a.Ordered) : OrderedValue (flatten a) := by
  simp only [OrderedValue, flatten, yields_bind, yields_pure, Value.ordered_seq]
  refine (Value.asSeq_yields ha).mono fun items hitems => ?_
  refine (yields_mapM fun item hitem => Value.asSeq_yields (hitems item hitem)).mono ?_
  intro lists hlists x hx
  obtain ⟨list, hlist, hx⟩ := List.mem_flatten.1 hx
  exact hlists list hlist x hx

theorem nth_ordered (ha : a.Ordered) : OrderedValue (nth a b) := by
  simp only [OrderedValue, nth, yields_bind, yields_pure]
  refine (Value.asSeq_yields ha).mono fun items hitems i _ => ?_
  dsimp only
  split
  · exact Value.ordered_unit
  · cases hitem : items[i.toInt.toNat]? with
    | none => exact Value.ordered_unit
    | some item => exact hitems item (List.mem_of_getElem? hitem)

theorem singleton_ordered (ha : a.Ordered) : OrderedValue (singleton a) := by
  simp only [OrderedValue, singleton, yields_bind]
  refine (Value.asSeq_yields ha).mono fun items hitems => ?_
  split
  · rename_i only
    exact yields_pure.2 (Value.ordered_left.2 (hitems only List.mem_cons_self))
  · exact yields_pure.2 Value.ordered_unit

end Sequence

/-! ### Durations and sums

A duration is written as a record of two fields, and its unit as nested sides without any. -/

@[simp] theorem TemporalUnit.toValue_ordered (u : TemporalUnit) : u.toValue.Ordered := by
  cases u <;> exact trivial

/-- The amount of a duration comes before its unit. -/
@[simp] theorem Duration.toValue_ordered (d : Duration) : d.toValue.Ordered := by
  have hnames : "amount" < "unit" := by decide
  refine ⟨List.pairwise_cons.2 ⟨fun field hfield => ?_, List.pairwise_singleton _ _⟩, trivial,
    d.unit.toValue_ordered, trivial⟩
  obtain rfl := List.mem_singleton.1 hfield
  exact hnames

@[simp] theorem Duration.combine_ordered (operator : String) (f : Int → Int → Int) (a b : Value) :
    OrderedValue (Duration.combine operator f a b) := by
  rw [OrderedValue, Duration.combine, yields_bind]
  intro aligned _
  split <;> simp

@[simp] theorem Time.shift_ordered (operator : String) (direction : Int) (a d : Value) :
    OrderedValue (Time.shift operator direction a d) := by
  simp only [OrderedValue, Time.shift, yields_bind]
  intro seconds _ t _
  split <;> simp

@[simp] theorem Sum.isLeft_ordered (v : Value) : OrderedValue (Sum.isLeft v) := by
  unfold Sum.isLeft
  split <;> simp [Value.unexpected]

/-- The payload of a side is in order if the side is. -/
theorem Sum.unwrapLeft_ordered {v : Value} (hv : v.Ordered) : OrderedValue (Sum.unwrapLeft v) := by
  cases v with
  | left payload => exact yields_ok.2 hv
  | _ => exact yields_error _

theorem Sum.unwrapRight_ordered {v : Value} (hv : v.Ordered) :
    OrderedValue (Sum.unwrapRight v) := by
  cases v with
  | right payload => exact yields_ok.2 hv
  | _ => exact yields_error _

/-! ### All operators -/

/-- Whatever operands in order it is applied to, a meaning yields a value in order. -/
def Operation.KeepsOrder : Operation → Prop
  | .unary f => ∀ a, a.Ordered → OrderedValue (f a)
  | .binary f => ∀ a b, a.Ordered → b.Ordered → OrderedValue (f a b)
  | .ternary f => ∀ a b c, a.Ordered → b.Ordered → c.Ordered → OrderedValue (f a b c)

/-- An operation keeps the order with its operands in a list. -/
theorem Operation.run?_ordered {operation : Operation} (h : operation.KeepsOrder)
    {args : List Value} (hargs : ∀ arg ∈ args, arg.Ordered) {result : Result Value}
    (hrun : operation.run? args = some result) : OrderedValue result := by
  unfold run? at hrun
  split at hrun <;> cases hrun
  · exact h _ (hargs _ (by simp))
  · exact h _ _ (hargs _ (by simp)) (hargs _ (by simp))
  · exact h _ _ _ (hargs _ (by simp)) (hargs _ (by simp)) (hargs _ (by simp))

namespace Primitive

theorem operation_keepsOrder (p : Primitive) : p.operation.KeepsOrder := by
  cases p with
  | union => exact fun _ _ => Sequence.union_ordered
  | minus =>
      exact fun _ _ => Sequence.bagOperator_ordered fun hx => .inl ((Bag.minus_sublist _ _).mem hx)
  | min =>
      exact fun _ _ => Sequence.bagOperator_ordered fun hx => .inl ((Bag.min_sublist _ _).mem hx)
  | max => exact fun _ _ => Sequence.bagOperator_ordered Bag.mem_of_mem_max
  | distinct => exact fun _ => Sequence.distinct_ordered
  | sort => exact fun _ _ _ => Sequence.sort_ordered
  | flatten => exact fun _ => Sequence.flatten_ordered
  | nth => exact fun _ _ ha _ => Sequence.nth_ordered ha
  | singleton => exact fun _ => Sequence.singleton_ordered
  | unwrapLeft => exact fun _ => Sum.unwrapLeft_ordered
  | unwrapRight => exact fun _ => Sum.unwrapRight_ordered
  | _ =>
      -- What is left yields a scalar, or a duration or a unit of its own making.
      simp [operation, Operation.KeepsOrder, Logic.both, Logic.either, Logic.negate, Logic.equal,
        Logic.order, Whole.exact, Whole.plus, Whole.minus, Whole.times, Whole.quotient,
        Whole.remainder, Whole.least, Whole.greatest, Whole.magnitude, Whole.test, Whole.sum,
        Floating.binary, Floating.unary, Floating.test, Floating.sum, Floating.mean,
        Floating.ofWhole, Text.concat, Text.length, Text.substring, Text.join, Text.contains,
        Sequence.count, Sequence.contains, Time.parse, Time.format, Time.difference, Time.add,
        Time.subtract, Time.test, Time.earlier, Time.later, Time.year, Time.month, Time.day,
        Duration.ofSeconds, Duration.amountOf, Duration.unitOf, Duration.convert, Duration.add,
        Duration.subtract, Duration.order, Sum.errorMessage]

/-- An operator applied to values in order yields a value in order. -/
theorem apply_ordered (p : Primitive) {args : List Value} (hargs : ∀ arg ∈ args, arg.Ordered) :
    OrderedValue (p.apply args) := by
  by_cases hlength : args.length = p.arity
  · obtain ⟨result, hrun⟩ := Option.isSome_iff_exists.1 (p.run?_isSome_iff.2 hlength)
    rw [apply_of_run? hrun]
    exact Operation.run?_ordered p.operation_keepsOrder hargs hrun
  · rw [apply_of_length_ne hlength]
    exact yields_error _

end Primitive

end ClauseEngine
