/-
Module: ClauseEngine.Primitive.Table
Purpose: The primitive operators of the contract language: their names, their meanings, the number
  of arguments they take, and their application to evaluated arguments. The number of arguments has a
  table of its own, and the meanings agree with it.
Main exports: Operation, Primitive, Primitive.name, Primitive.operation, Primitive.arity,
  Primitive.arity_operation, Primitive.ofName, Primitive.apply, Primitive.decidedBy?
-/
import ClauseEngine.Primitive.Floating
import ClauseEngine.Primitive.Sequence
import ClauseEngine.Primitive.Sum
import ClauseEngine.Primitive.Text
import ClauseEngine.Primitive.Time
import ClauseEngine.Primitive.Whole

namespace ClauseEngine

namespace Logic

/-- Conjunction. The second operand is not looked at if the first is false. -/
def both (a b : Value) : Result Value := do
  if ← a.asBool then return .bool (← b.asBool) else return .bool false

/-- Disjunction. The second operand is not looked at if the first is true. -/
def either (a b : Value) : Result Value := do
  if ← a.asBool then return .bool true else return .bool (← b.asBool)

def negate (a : Value) : Result Value := do
  return .bool (!(← a.asBool))

/-- Structural equality of any two values. -/
def equal (a b : Value) : Result Value := .ok (.bool (Value.equal a b))

/-- The order of any two values as a sign. -/
def order (a b : Value) : Result Value := .ok (.nat (Integer.signOf (Value.order a b)))

end Logic

/-- The meaning of an operator, by the number of its arguments. -/
inductive Operation where
  | unary (f : Value → Result Value)
  | binary (f : Value → Value → Result Value)
  | ternary (f : Value → Value → Value → Result Value)

namespace Operation

def arity : Operation → Nat
  | .unary _ => 1
  | .binary _ => 2
  | .ternary _ => 3

/-- Apply to a list of arguments, if it has the right length. -/
def run? : Operation → List Value → Option (Result Value)
  | .unary f, [a] => some (f a)
  | .binary f, [a, b] => some (f a b)
  | .ternary f, [a, b, c] => some (f a b c)
  | _, _ => none

/-- A meaning can be applied exactly to as many arguments as it takes. -/
theorem run?_isSome_iff {operation : Operation} {args : List Value} :
    (operation.run? args).isSome ↔ args.length = operation.arity := by
  cases operation <;> rcases args with _ | ⟨a, _ | ⟨b, _ | ⟨c, _ | ⟨d, rest⟩⟩⟩⟩ <;>
    simp [run?, arity]

end Operation

/-- The primitive operators. -/
inductive Primitive where
  | and
  | or
  | not
  | equal
  | compare
  | natPlus
  | natMinus
  | natMult
  | natDiv
  | natRem
  | natMin
  | natMax
  | natAbs
  | natLt
  | natLe
  | natGt
  | natGe
  | natSum
  | floatPlus
  | floatMinus
  | floatMult
  | floatDiv
  | floatPow
  | floatMin
  | floatMax
  | floatNeg
  | floatAbs
  | floatSqrt
  | floatFloor
  | floatCeil
  | floatLt
  | floatLe
  | floatGt
  | floatGe
  | floatSum
  | floatMean
  | floatOfNat
  | natOfFloat
  | strConcat
  | strLength
  | substring
  | strJoin
  | strContains
  | toString
  | union
  | minus
  | min
  | max
  | distinct
  | sort
  | flatten
  | nth
  | count
  | contains
  | singleton
  | dateTimeParse
  | dateTimeFormat
  | dateTimeDiff
  | dateTimeAdd
  | dateTimeSubtract
  | dateTimeIsBefore
  | dateTimeIsAfter
  | dateTimeIsSame
  | dateTimeMin
  | dateTimeMax
  | dateTimeYear
  | dateTimeMonth
  | dateTimeDay
  | durationSeconds
  | durationAmount
  | durationUnit
  | durationConvert
  | durationAdd
  | durationSubtract
  | durationCompare
  | isLeft
  | unwrapLeft
  | unwrapRight
  | errorMessage
deriving DecidableEq, Repr

namespace Primitive

/-- All operators, in their order of declaration. -/
def all : List Primitive :=
  [.and, .or, .not, .equal, .compare, .natPlus, .natMinus, .natMult, .natDiv, .natRem, .natMin,
   .natMax, .natAbs, .natLt, .natLe, .natGt, .natGe, .natSum, .floatPlus, .floatMinus, .floatMult,
   .floatDiv, .floatPow, .floatMin, .floatMax, .floatNeg, .floatAbs, .floatSqrt, .floatFloor,
   .floatCeil, .floatLt, .floatLe, .floatGt, .floatGe, .floatSum, .floatMean, .floatOfNat,
   .natOfFloat, .strConcat, .strLength, .substring, .strJoin, .strContains, .toString, .union,
   .minus, .min, .max, .distinct, .sort, .flatten, .nth, .count, .contains, .singleton,
   .dateTimeParse, .dateTimeFormat, .dateTimeDiff, .dateTimeAdd, .dateTimeSubtract,
   .dateTimeIsBefore, .dateTimeIsAfter, .dateTimeIsSame, .dateTimeMin, .dateTimeMax, .dateTimeYear,
   .dateTimeMonth, .dateTimeDay, .durationSeconds, .durationAmount, .durationUnit, .durationConvert,
   .durationAdd, .durationSubtract, .durationCompare, .isLeft, .unwrapLeft, .unwrapRight,
   .errorMessage]

/-- The name of an operator in compiled logic and in messages. -/
def name : Primitive → String
  | .and => "and"
  | .or => "or"
  | .not => "not"
  | .equal => "equal"
  | .compare => "compare"
  | .natPlus => "nat_plus"
  | .natMinus => "nat_minus"
  | .natMult => "nat_mult"
  | .natDiv => "nat_div"
  | .natRem => "nat_rem"
  | .natMin => "nat_min"
  | .natMax => "nat_max"
  | .natAbs => "nat_abs"
  | .natLt => "nat_lt"
  | .natLe => "nat_le"
  | .natGt => "nat_gt"
  | .natGe => "nat_ge"
  | .natSum => "nat_sum"
  | .floatPlus => "float_plus"
  | .floatMinus => "float_minus"
  | .floatMult => "float_mult"
  | .floatDiv => "float_div"
  | .floatPow => "float_pow"
  | .floatMin => "float_min"
  | .floatMax => "float_max"
  | .floatNeg => "float_neg"
  | .floatAbs => "float_abs"
  | .floatSqrt => "float_sqrt"
  | .floatFloor => "float_floor"
  | .floatCeil => "float_ceil"
  | .floatLt => "float_lt"
  | .floatLe => "float_le"
  | .floatGt => "float_gt"
  | .floatGe => "float_ge"
  | .floatSum => "float_sum"
  | .floatMean => "float_mean"
  | .floatOfNat => "float_of_nat"
  | .natOfFloat => "nat_of_float"
  | .strConcat => "str_concat"
  | .strLength => "str_length"
  | .substring => "substring"
  | .strJoin => "str_join"
  | .strContains => "str_contains"
  | .toString => "to_string"
  | .union => "union"
  | .minus => "minus"
  | .min => "min"
  | .max => "max"
  | .distinct => "distinct"
  | .sort => "sort"
  | .flatten => "flatten"
  | .nth => "nth"
  | .count => "count"
  | .contains => "contains"
  | .singleton => "singleton"
  | .dateTimeParse => "date_time_parse"
  | .dateTimeFormat => "date_time_format"
  | .dateTimeDiff => "date_time_diff"
  | .dateTimeAdd => "date_time_add"
  | .dateTimeSubtract => "date_time_subtract"
  | .dateTimeIsBefore => "date_time_is_before"
  | .dateTimeIsAfter => "date_time_is_after"
  | .dateTimeIsSame => "date_time_is_same"
  | .dateTimeMin => "date_time_min"
  | .dateTimeMax => "date_time_max"
  | .dateTimeYear => "date_time_year"
  | .dateTimeMonth => "date_time_month"
  | .dateTimeDay => "date_time_day"
  | .durationSeconds => "duration_seconds"
  | .durationAmount => "duration_amount"
  | .durationUnit => "duration_unit"
  | .durationConvert => "duration_convert"
  | .durationAdd => "duration_add"
  | .durationSubtract => "duration_subtract"
  | .durationCompare => "duration_compare"
  | .isLeft => "is_left"
  | .unwrapLeft => "unwrap_left"
  | .unwrapRight => "unwrap_right"
  | .errorMessage => "error_message"

/-- The meaning of an operator. -/
def operation : Primitive → Operation
  | .and => .binary Logic.both
  | .or => .binary Logic.either
  | .not => .unary Logic.negate
  | .equal => .binary Logic.equal
  | .compare => .binary Logic.order
  | .natPlus => .binary Whole.plus
  | .natMinus => .binary Whole.minus
  | .natMult => .binary Whole.times
  | .natDiv => .binary Whole.quotient
  | .natRem => .binary Whole.remainder
  | .natMin => .binary Whole.least
  | .natMax => .binary Whole.greatest
  | .natAbs => .unary Whole.magnitude
  | .natLt => .binary (Whole.test Ordering.isLT)
  | .natLe => .binary (Whole.test Ordering.isLE)
  | .natGt => .binary (Whole.test Ordering.isGT)
  | .natGe => .binary (Whole.test Ordering.isGE)
  | .natSum => .unary Whole.sum
  | .floatPlus => .binary (Floating.binary Double.add)
  | .floatMinus => .binary (Floating.binary Double.sub)
  | .floatMult => .binary (Floating.binary Double.mul)
  | .floatDiv => .binary (Floating.binary Double.div)
  | .floatPow => .binary (Floating.binary Double.pow)
  | .floatMin => .binary (Floating.binary Double.min)
  | .floatMax => .binary (Floating.binary Double.max)
  | .floatNeg => .unary (Floating.unary Double.neg)
  | .floatAbs => .unary (Floating.unary Double.abs)
  | .floatSqrt => .unary (Floating.unary Double.sqrt)
  | .floatFloor => .unary (Floating.unary Double.floor)
  | .floatCeil => .unary (Floating.unary Double.ceil)
  | .floatLt => .binary (Floating.test Double.lt)
  | .floatLe => .binary (Floating.test Double.le)
  | .floatGt => .binary (Floating.test fun x y => y.lt x)
  | .floatGe => .binary (Floating.test fun x y => y.le x)
  | .floatSum => .unary Floating.sum
  | .floatMean => .unary Floating.mean
  | .floatOfNat => .unary Floating.ofWhole
  | .natOfFloat => .unary Whole.ofFloat
  | .strConcat => .binary Text.concat
  | .strLength => .unary Text.length
  | .substring => .ternary Text.substring
  | .strJoin => .binary Text.join
  | .strContains => .binary Text.contains
  | .toString => .unary Text.ofValue
  | .union => .binary Sequence.union
  | .minus => .binary Sequence.minus
  | .min => .binary Sequence.min
  | .max => .binary Sequence.max
  | .distinct => .unary Sequence.distinct
  | .sort => .binary Sequence.sort
  | .flatten => .unary Sequence.flatten
  | .nth => .binary Sequence.nth
  | .count => .unary Sequence.count
  | .contains => .binary Sequence.contains
  | .singleton => .unary Sequence.singleton
  | .dateTimeParse => .unary Time.parse
  | .dateTimeFormat => .unary Time.format
  | .dateTimeDiff => .binary Time.difference
  | .dateTimeAdd => .binary Time.add
  | .dateTimeSubtract => .binary Time.subtract
  | .dateTimeIsBefore => .binary (Time.test Ordering.isLT)
  | .dateTimeIsAfter => .binary (Time.test Ordering.isGT)
  | .dateTimeIsSame => .binary (Time.test Ordering.isEq)
  | .dateTimeMin => .binary Time.earlier
  | .dateTimeMax => .binary Time.later
  | .dateTimeYear => .unary Time.year
  | .dateTimeMonth => .unary Time.month
  | .dateTimeDay => .unary Time.day
  | .durationSeconds => .unary Duration.ofSeconds
  | .durationAmount => .unary Duration.amountOf
  | .durationUnit => .unary Duration.unitOf
  | .durationConvert => .binary Duration.convert
  | .durationAdd => .binary Duration.add
  | .durationSubtract => .binary Duration.subtract
  | .durationCompare => .binary Duration.order
  | .isLeft => .unary Sum.isLeft
  | .unwrapLeft => .unary Sum.unwrapLeft
  | .unwrapRight => .unary Sum.unwrapRight
  | .errorMessage => .unary Sum.errorMessage

/-- How many arguments an operator takes. -/
def arity : Primitive → Nat
  | .not | .natAbs | .natSum | .floatNeg | .floatAbs | .floatSqrt | .floatFloor | .floatCeil
    | .floatSum | .floatMean | .floatOfNat | .natOfFloat | .strLength | .toString | .distinct
    | .flatten | .count | .singleton | .dateTimeParse | .dateTimeFormat | .dateTimeYear
    | .dateTimeMonth | .dateTimeDay | .durationSeconds | .durationAmount | .durationUnit
    | .isLeft | .unwrapLeft | .unwrapRight | .errorMessage => 1
  | .and | .or | .equal | .compare | .natPlus | .natMinus | .natMult | .natDiv | .natRem
    | .natMin | .natMax | .natLt | .natLe | .natGt | .natGe | .floatPlus | .floatMinus
    | .floatMult | .floatDiv | .floatPow | .floatMin | .floatMax | .floatLt | .floatLe
    | .floatGt | .floatGe | .strConcat | .strJoin | .strContains | .union | .minus | .min
    | .max | .sort | .nth | .contains | .dateTimeDiff | .dateTimeAdd | .dateTimeSubtract
    | .dateTimeIsBefore | .dateTimeIsAfter | .dateTimeIsSame | .dateTimeMin | .dateTimeMax
    | .durationConvert | .durationAdd | .durationSubtract | .durationCompare => 2
  | .substring => 3

/-- The meaning of an operator takes the number of arguments that the table gives. -/
theorem arity_operation (p : Primitive) : p.operation.arity = p.arity := by
  cases p <;> rfl

/-- The operator of a name. -/
def ofName (name : String) : Result Primitive :=
  match all.find? fun p => p.name == name with
  | some p => .ok p
  | none => .error (.unknownPrimitive name)

/-- The error of a wrong number of arguments. -/
def arityError (p : Primitive) (count : Nat) : EvalError := .arity p.name p.arity count

theorem run?_isSome_iff (p : Primitive) {args : List Value} :
    (p.operation.run? args).isSome ↔ args.length = p.arity := by
  rw [Operation.run?_isSome_iff, arity_operation]

/-- Apply an operator to evaluated arguments. Their number is checked against the table, and the
    meaning then finds every argument it looks at. -/
def apply (p : Primitive) (args : List Value) : Result Value :=
  if h : args.length = p.arity then (p.operation.run? args).get (p.run?_isSome_iff.2 h)
  else .error (p.arityError args.length)

theorem apply_of_run? {p : Primitive} {args : List Value} {result : Result Value}
    (h : p.operation.run? args = some result) : p.apply args = result := by
  have hlength : args.length = p.arity := p.run?_isSome_iff.1 (Option.isSome_of_eq_some h)
  rw [apply, dif_pos hlength]
  exact Option.get_of_eq_some _ h

theorem apply_of_length_ne {p : Primitive} {args : List Value} (h : args.length ≠ p.arity) :
    p.apply args = .error (p.arityError args.length) :=
  dif_neg h

/-- The value of the first operand that settles a connective without its second operand. -/
def decidedBy? : Primitive → Option Bool
  | .and => some false
  | .or => some true
  | _ => none

end Primitive

end ClauseEngine
