/-
Module: ClauseEngine.Proofs.Primitive.Errors
Purpose: The errors that operators raise. Whatever its operands are, an operator only complains
  about them: their kinds, their fields, or a result that does not fit. It never fails for want of a
  variable, for the depth of an expression or for a document that cannot be read.
Main exports: EvalError.OfOperands, OperandErrors, UnitErrors, TemporalUnit.ofValue_unitErrors,
  Primitive.operation_complains, Primitive.apply_raisesOnly
-/
import ClauseEngine.Primitive.Table
import ClauseEngine.Proofs.Result

namespace ClauseEngine

/-- An error about the operands of a single operation. -/
inductive EvalError.OfOperands : EvalError → Prop
  | mismatch (error : Mismatch) : OfOperands (.mismatch error)
  | notRecord (error : NotRecord) : OfOperands (.notRecord error)
  | missingField (name : String) : OfOperands (.missingField name)
  | divisionByZero (operator : String) : OfOperands (.divisionByZero operator)
  | overflow (error : Overflow) : OfOperands (.overflow error)
  | badDateTime (text : String) (error : DateTime.TextError) : OfOperands (.badDateTime text error)
  | badUnit (error : UnitError) : OfOperands (.badUnit error)
  | unwrap (expected : Side) (payload : String) : OfOperands (.unwrap expected payload)

attribute [simp] EvalError.OfOperands.mismatch EvalError.OfOperands.notRecord
  EvalError.OfOperands.missingField EvalError.OfOperands.divisionByZero
  EvalError.OfOperands.overflow EvalError.OfOperands.badDateTime EvalError.OfOperands.badUnit
  EvalError.OfOperands.unwrap

/-- The computation complains about operands, if at all. -/
abbrev OperandErrors {α : Type} (r : Result α) : Prop := RaisesOnly EvalError.OfOperands r

/-! ### Reading a value as a given kind

A value of another kind is complained about, whatever kind was asked for, and so are a field that is
missing and a text that is no timestamp. -/

namespace Value

/-- A value of an unexpected kind is a complaint about it. -/
@[simp] theorem unexpected_operandErrors {α : Type} (what : String) (v : Value) :
    OperandErrors (v.unexpected what : Result α) := by
  simp [unexpected]

@[simp] theorem asBool_operandErrors (v : Value) : OperandErrors v.asBool := by
  unfold asBool
  split <;> simp

@[simp] theorem asNat_operandErrors (v : Value) : OperandErrors v.asNat := by
  unfold asNat
  split <;> simp

@[simp] theorem asFloat_operandErrors (v : Value) : OperandErrors v.asFloat := by
  unfold asFloat
  split <;> simp

@[simp] theorem asStr_operandErrors (v : Value) : OperandErrors v.asStr := by
  unfold asStr
  split <;> simp

@[simp] theorem asDateTime_operandErrors (v : Value) : OperandErrors v.asDateTime := by
  unfold asDateTime
  split <;> simp

@[simp] theorem asSeq_operandErrors (v : Value) : OperandErrors v.asSeq := by
  unfold asSeq
  split <;> simp

@[simp] theorem asRecord_operandErrors (v : Value) : OperandErrors v.asRecord := by
  unfold asRecord
  split <;> simp

/-- A missing field is a complaint about the record. -/
@[simp] theorem fieldOf_operandErrors (fields : List (String × Value)) (name : String) :
    OperandErrors (fieldOf fields name) := by
  unfold fieldOf
  split <;> simp

@[simp] theorem dot_operandErrors (v : Value) (name : String) : OperandErrors (v.dot name) := by
  simp [dot]

@[simp] theorem readDateTime_operandErrors (text : String) :
    OperandErrors (readDateTime text) := by
  unfold readDateTime
  split <;> simp

end Value

/-! ### Whole numbers

Whole numbers add overflow and division by zero to the complaints about kinds. -/

namespace Whole

@[simp] theorem orOverflow_operandErrors (word : Option Int64) (error : Overflow) :
    OperandErrors (orOverflow word error) := by
  unfold orOverflow
  split <;> simp

@[simp] theorem checked_operandErrors (z : Int) (error : Overflow) :
    OperandErrors (checked z error) := by
  simp [checked]

@[simp] theorem exact_operandErrors (operator : String) (f : Int → Int → Int) (a b : Value) :
    OperandErrors (exact operator f a b) := by
  simp [exact]

@[simp] theorem quotient_operandErrors (a b : Value) : OperandErrors (quotient a b) := by
  simp only [quotient, raisesOnly_bind, Value.asNat_operandErrors, true_and]
  intro x _ y _
  split
  · simp
  · simp only [raisesOnly_bind, orOverflow_operandErrors, true_and]
    intro q _
    split <;> simp

@[simp] theorem remainder_operandErrors (a b : Value) : OperandErrors (remainder a b) := by
  simp only [remainder, raisesOnly_bind, Value.asNat_operandErrors, true_and]
  intro x _ y _
  split <;> simp

/-- The running total of a sum stops at the first item that is no number or makes it overflow. -/
@[simp] theorem sumFrom_operandErrors (total : Int64) (items : List Value) :
    OperandErrors (sumFrom total items) := by
  induction items generalizing total with
  | nil => simp [sumFrom]
  | cons item rest ih =>
      simp only [sumFrom, raisesOnly_bind, Value.asNat_operandErrors, true_and]
      intro x _
      split <;> simp [ih]

@[simp] theorem ofFloat_operandErrors (a : Value) : OperandErrors (ofFloat a) := by
  simp only [ofFloat, raisesOnly_bind, Value.asFloat_operandErrors, true_and]
  intro x _
  split <;> simp

end Whole

/-! ### Doubles

Doubles do not overflow, so that only the kinds of operands and items can be wrong. -/

@[simp] theorem Floating.sumFrom_operandErrors (total : Double) (items : List Value) :
    OperandErrors (Floating.sumFrom total items) := by
  induction items generalizing total with
  | nil => simp [Floating.sumFrom]
  | cons item rest ih => simp [Floating.sumFrom, ih]

@[simp] theorem Floating.mean_operandErrors (a : Value) : OperandErrors (Floating.mean a) := by
  simp only [Floating.mean, raisesOnly_bind, Value.asSeq_operandErrors, true_and]
  intro items _
  split <;> simp

/-! ### Strings -/

namespace Text

@[simp] theorem substring_operandErrors (a start count : Value) :
    OperandErrors (substring a start count) := by
  simp only [substring, raisesOnly_bind, Value.asStr_operandErrors, Value.asNat_operandErrors,
    true_and]
  intro s _ i _ n _
  split <;> simp

@[simp] theorem join_operandErrors (separator a : Value) : OperandErrors (join separator a) := by
  simp [join, raisesOnly_mapM]

@[simp] theorem ofValue_operandErrors (v : Value) : OperandErrors (ofValue v) := by
  unfold ofValue
  split <;> simp

end Text

/-! ### Sequences

Sorting is the longest of these. It reads criteria and then keys, and the sort itself cannot fail.
-/

namespace Sequence

@[simp] theorem Criterion.read_operandErrors (v : Value) : OperandErrors (Criterion.read v) := by
  simp only [Criterion.read, raisesOnly_bind, Value.dot_operandErrors, Value.asStr_operandErrors,
    true_and]
  intros
  split
  · simp
  · split <;> simp

@[simp] theorem Criterion.key_operandErrors (c : Criterion) (item : Value) :
    OperandErrors (c.key item) := by
  unfold Criterion.key
  split <;> simp

/-- Sorting complains about criteria that cannot be read and items that lack a key. -/
@[simp] theorem sort_operandErrors (criteria a : Value) : OperandErrors (sort criteria a) := by
  simp [sort, raisesOnly_mapM]

@[simp] theorem flatten_operandErrors (a : Value) : OperandErrors (flatten a) := by
  simp [flatten, raisesOnly_mapM]

@[simp] theorem singleton_operandErrors (a : Value) : OperandErrors (singleton a) := by
  simp only [singleton, raisesOnly_bind, Value.asSeq_operandErrors, true_and]
  intro items _
  split <;> simp

end Sequence

/-! ### Durations and date-times

A unit is written as a nested sum, which is read level by level. Everything that can be wrong with
it is one kind of complaint. -/

/-- The computation complains about a temporal unit, if at all. -/
abbrev UnitErrors {α : Type} (r : Result α) : Prop :=
  RaisesOnly (fun error => ∃ cause, error = .badUnit cause) r

namespace TemporalUnit

@[simp] theorem ofTerminal_unitErrors (ordinal : Nat) (terminal : Value) :
    UnitErrors (ofTerminal ordinal terminal) := by
  unfold ofTerminal
  split
  · simp
  · split
    · split <;> simp
    · simp

@[simp] theorem ofNested_unitErrors (depth : Nat) (v : Value) : UnitErrors (ofNested depth v) := by
  fun_induction ofNested depth v <;> simp [*]

/-- A value that denotes no unit is refused as such. -/
theorem ofValue_unitErrors (v : Value) : UnitErrors (ofValue v) := by
  unfold ofValue ofName
  split
  · split <;> simp
  · simp

@[simp] theorem ofValue_operandErrors (v : Value) : OperandErrors (ofValue v) := by
  refine (ofValue_unitErrors v).mono ?_
  rintro _ ⟨cause, rfl⟩
  exact .badUnit cause

end TemporalUnit

namespace Duration

@[simp] theorem ofValue_operandErrors (v : Value) : OperandErrors (ofValue v) := by
  unfold ofValue
  split <;> simp

@[simp] theorem amountIn_operandErrors (d : Duration) (target : TemporalUnit) :
    OperandErrors (d.amountIn target) := by
  simp only [amountIn, convertAmount]
  split <;> simp

@[simp] theorem secondsOf_operandErrors (v : Value) : OperandErrors (secondsOf v) := by
  simp [secondsOf]

@[simp] theorem align_operandErrors (a b : Value) : OperandErrors (align a b) := by
  simp [align]

@[simp] theorem combine_operandErrors (operator : String) (f : Int → Int → Int) (a b : Value) :
    OperandErrors (combine operator f a b) := by
  simp only [combine, raisesOnly_bind, align_operandErrors, true_and]
  intro aligned _
  split <;> simp

end Duration

@[simp] theorem Time.shift_operandErrors (operator : String) (direction : Int) (a d : Value) :
    OperandErrors (Time.shift operator direction a d) := by
  simp only [Time.shift, raisesOnly_bind, Duration.secondsOf_operandErrors,
    Value.asDateTime_operandErrors, true_and]
  intro seconds _ t _
  split <;> simp

/-! ### Sums and truth values -/

namespace Sum

@[simp] theorem isLeft_operandErrors (v : Value) : OperandErrors (isLeft v) := by
  unfold isLeft
  split <;> simp

@[simp] theorem unwrapLeft_operandErrors (v : Value) : OperandErrors (unwrapLeft v) := by
  unfold unwrapLeft
  split <;> simp

@[simp] theorem unwrapRight_operandErrors (v : Value) : OperandErrors (unwrapRight v) := by
  unfold unwrapRight
  split <;> simp

end Sum

namespace Logic

@[simp] theorem both_operandErrors (a b : Value) : OperandErrors (both a b) := by
  simp only [both, raisesOnly_bind, Value.asBool_operandErrors, true_and]
  intro x _
  split <;> simp

@[simp] theorem either_operandErrors (a b : Value) : OperandErrors (either a b) := by
  simp only [either, raisesOnly_bind, Value.asBool_operandErrors, true_and]
  intro x _
  split <;> simp

end Logic

/-! ### All operators

The table of operators is gone through once. An operator that is given as many operands as it takes
runs its operation, and otherwise the number of operands is complained about. -/

/-- Whatever it is applied to, a meaning complains about the operands, if at all. -/
def Operation.Complains : Operation → Prop
  | .unary f => ∀ a, OperandErrors (f a)
  | .binary f => ∀ a b, OperandErrors (f a b)
  | .ternary f => ∀ a b c, OperandErrors (f a b c)

/-- An operation complains in the same way with its operands in a list. -/
theorem Operation.run?_operandErrors {operation : Operation} (h : operation.Complains)
    {args : List Value} {result : Result Value} (hrun : operation.run? args = some result) :
    OperandErrors result := by
  unfold run? at hrun
  split at hrun <;> cases hrun
  · exact h _
  · exact h _ _
  · exact h _ _ _

namespace Primitive

theorem operation_complains (p : Primitive) : p.operation.Complains := by
  -- The operators named here only read their operands one by one; the others have a lemma above.
  cases p <;> simp [operation, Operation.Complains, Logic.negate, Logic.equal, Logic.order,
    Whole.plus, Whole.minus, Whole.times, Whole.least, Whole.greatest, Whole.magnitude, Whole.test,
    Whole.sum, Floating.binary, Floating.unary, Floating.test, Floating.sum, Floating.ofWhole,
    Text.concat, Text.length, Text.contains, Sequence.union, Sequence.bagOperator, Sequence.minus,
    Sequence.min, Sequence.max, Sequence.distinct, Sequence.nth, Sequence.count,
    Sequence.contains, Time.parse, Time.format, Time.difference, Time.add, Time.subtract, Time.test,
    Time.earlier, Time.later, Time.year, Time.month, Time.day, Duration.ofSeconds,
    Duration.amountOf, Duration.unitOf, Duration.convert, Duration.add, Duration.subtract,
    Duration.order, Sum.errorMessage]

/-- An operator raises an error about its operands, or says that their number is wrong. -/
theorem apply_raisesOnly (p : Primitive) (args : List Value) :
    RaisesOnly (fun error => error.OfOperands ∨
      (args.length ≠ p.arity ∧ error = p.arityError args.length)) (p.apply args) := by
  by_cases hlength : args.length = p.arity
  · obtain ⟨result, hrun⟩ := Option.isSome_iff_exists.1 (p.run?_isSome_iff.2 hlength)
    rw [apply_of_run? hrun]
    exact (Operation.run?_operandErrors p.operation_complains hrun).mono fun _ => .inl
  · rw [apply_of_length_ne hlength]
    exact raisesOnly_error.2 (.inr ⟨hlength, rfl⟩)

end Primitive

end ClauseEngine
