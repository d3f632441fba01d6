/-
Module: ClauseEngine.Error
Purpose: Every way in which reading, loading or evaluating can fail, as data, together with the one
  place that words them.
Main exports: ReadError, Mismatch, NotRecord, Overflow, UnitError, ConfigError, EvalError,
  EvalError.message
-/
import ClauseEngine.Bundle
import ClauseEngine.DateTime.Text
import ClauseEngine.Json.Printer
import ClauseEngine.Value.Basic

namespace ClauseEngine

/-- Why a document cannot be read as a value, an expression, a contract or an invocation. -/
inductive ReadError where
  | natTag (found : Json)
  | dateTimeTag
  | floatTag (found : Json)
  | recordTag
  | classNotString (found : Json)
  | classNotSingle (found : Json)
  | noData (brand : String)
  | noExprTag (found : Json)
  | missing (node name : String)
  | misshapen (node name expected : String)
  | unknownNode (kind : String)
  | missingInput (call name : String)
  | bundle (error : BundleError)
  | inConstruct (kind id : String) (provenance : Option Provenance) (error : ReadError)

/-- The wording of a read error. -/
def ReadError.message : ReadError → String
  | .natTag found => s!"'$nat' must hold an integer, got {found.render}"
  | .dateTimeTag => "'$datetime' must hold a string"
  | .floatTag found => s!"'$float' must be \"inf\", \"-inf\" or \"nan\", got {found.render}"
  | .recordTag => "'$record' must hold an object"
  | .classNotString found => s!"'$class' must be a string, got {found.render}"
  | .classNotSingle found => s!"'$class' must name exactly one brand, got {found.render}"
  | .noData brand => s!"branded value '{brand}' missing '$data' object"
  | .noExprTag found => s!"expression node missing 'expr' tag: {found.render}"
  | .missing node name => s!"{node} missing '{name}'"
  | .misshapen node name expected => s!"{node} '{name}' must be {expected}"
  | .unknownNode kind => s!"unknown expression kind '{kind}'"
  | .missingInput call name => s!"{call} input missing '{name}'"
  | .bundle error => error.message
  | .inConstruct kind id provenance error =>
      let place := match provenance with
        | some p => s!" ({p.text})"
        | none => ""
      s!"{kind} '{id}'{place}: {error.message}"

/-- Why a value is of the wrong kind where it is used. -/
inductive Mismatch where
  | expected (what : String) (actual : Kind)
  | unbrand (actual : Kind)
  | scrutinee (actual : Kind)
  | now (actual : Kind)
  | clauseResult (clause : String) (actual : Kind)
  | substringBounds (start count : Int64)
  | sortOrder (found : String)

/-- The wording of a mismatch. -/
def Mismatch.message : Mismatch → String
  | .expected what actual => s!"expected {what}, got {actual.name}"
  | .unbrand actual => s!"unbrand expects a branded value, got {actual.name}"
  | .scrutinee actual => s!"either expects Left or Right, got {actual.name}"
  | .now actual => s!"'now' must be a date-time, got {actual.name}"
  | .clauseResult clause actual => s!"clause '{clause}' must yield Left or Right, got {actual.name}"
  | .substringBounds start count =>
      s!"substring bounds must be non-negative, got ({start.toInt}, {count.toInt})"
  | .sortOrder found => s!"sort order must be 'asc' or 'desc', got '{found}'"

/-- Where a record was needed. -/
inductive NotRecord where
  | expected (actual : Kind)
  | branding (actual : Kind) (brand : String)
  | sorting (actual : Kind) (field : String)

/-- The wording of a missing record. -/
def NotRecord.message : NotRecord → String
  | .expected actual => s!"expected Record, got {actual.name}"
  | .branding actual brand => s!"cannot brand {actual.name} as '{brand}'"
  | .sorting actual field => s!"cannot sort {actual.name} by field '{field}'"

/-- The computation whose result does not fit. -/
inductive Overflow where
  | unary (operator : String) (operand : Int64)
  | binary (operator : String) (left right : Int64)
  | truncation (operator : String) (operand : Double)
  | shift (operator : String) (seconds : Int64)
  | conversion (amount : Int64) (source target : String)
  | total (operator : String)

/-- The wording of an overflow. -/
def Overflow.message : Overflow → String
  | .unary operator operand => s!"{operator}({operand.toInt})"
  | .binary operator left right => s!"{operator}({left.toInt}, {right.toInt})"
  | .truncation operator operand => s!"{operator}({operand.plainText})"
  | .shift operator seconds => s!"{operator} of {seconds.toInt} seconds"
  | .conversion amount source target => s!"{amount.toInt} {source} in {target}"
  | .total operator => operator

/-- Why a value is no temporal unit. -/
inductive UnitError where
  | unknown (name : String)
  | notNested (actual : Kind)
  | outOfRange (ordinal : Nat)
  | misplaced (name unit : String)

/-- The wording of a unit error. -/
def UnitError.message : UnitError → String
  | .unknown name => s!"unknown unit '{name}'"
  | .notNested actual => s!"expected a nested sum, got {actual.name}"
  | .outOfRange ordinal => s!"ordinal {ordinal} out of range"
  | .misplaced name unit => s!"'{name}' encoded at the ordinal of '{unit}'"

/-- Why a configuration is refused. -/
inductive ConfigError where
  | notJson
  | unknownField (name : String)
  | unknownVariant (name : String)
  | invalidType (found expected : String)
  | invalidValue (found expected : String)
  | invalidLength (count : Nat)
  | zeroDepth
  | emptyErrorBrand
  | emptyContractErrorBrand (contract : String)

/-- The wording of a configuration error. -/
def ConfigError.message : ConfigError → String
  | .notJson => "not valid JSON"
  | .unknownField name =>
      s!"unknown field `{name}`, expected one of `subtyping`, `multi_brand_cast`, `max_depth`, `error_brand`"
  | .unknownVariant name =>
      s!"unknown variant `{name}`, expected `declared` or `transitive`"
  | .invalidType found expected => s!"invalid type: {found}, expected {expected}"
  | .invalidValue found expected => s!"invalid value: {found}, expected {expected}"
  | .invalidLength count => s!"invalid length {count}, expected fewer elements in array"
  | .zeroDepth => "max_depth must be at least 1"
  | .emptyErrorBrand => "error_brand must not be empty"
  | .emptyContractErrorBrand contract => s!"contract '{contract}' declares an empty error brand"

/-- The side of a sum. -/
inductive Side where
  | left
  | right
deriving DecidableEq, Repr

/-- Why an evaluation, or the reading and loading before it, fails. -/
inductive EvalError where
  | unreadable (error : ReadError)
  | mismatch (error : Mismatch)
  | notRecord (error : NotRecord)
  | missingField (name : String)
  | unbound (name : String)
  | unknownPrimitive (name : String)
  | arity (operator : String) (expected actual : Nat)
  | divisionByZero (operator : String)
  | overflow (error : Overflow)
  | unsupportedCast (count : Nat)
  | badDateTime (text : String) (error : DateTime.TextError)
  | badUnit (error : UnitError)
  | unwrap (expected : Side) (payload : String)
  | depthExceeded (limit : Nat)
  | config (error : ConfigError)

/-- The wording of a failure. -/
def EvalError.message : EvalError → String
  | .unreadable error => s!"deserialization error: {error.message}"
  | .mismatch error => s!"type error: {error.message}"
  | .notRecord error => s!"not a record: {error.message}"
  | .missingField name => s!"record has no field '{name}'"
  | .unbound name => s!"unbound variable: {name}"
  | .unknownPrimitive name => s!"unknown primitive operator: {name}"
  | .arity operator expected actual =>
      s!"operator '{operator}' expects {expected} argument(s), got {actual}"
  | .divisionByZero operator => s!"division by zero in '{operator}'"
  | .overflow error => s!"numeric overflow: {error.message}"
  | .unsupportedCast count => s!"cast with {count} target brands is not supported"
  | .badDateTime text error => s!"invalid date-time: '{text}': {error.reason}"
  | .badUnit error => s!"invalid temporal unit: {error.message}"
  | .unwrap .left payload => s!"unwrap failed: expected Left, got Right({payload})"
  | .unwrap .right payload => s!"unwrap failed: expected Right, got Left({payload})"
  | .depthExceeded limit => s!"evaluation depth limit of {limit} exceeded"
  | .config error => s!"configuration error: {error.message}"

end ClauseEngine
