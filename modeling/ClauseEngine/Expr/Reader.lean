/-
Module: ClauseEngine.Expr.Reader
Purpose: Reading expressions from compiled logic. Every node is an object whose tag names its kind;
  fields that its kind does not use are ignored. Operators are resolved and their arguments counted
  here, so that logic which has been read cannot fail for such reasons later.
Main exports: Expr.Node, Expr.Node.tag, Expr.read
-/
import ClauseEngine.Expr.Basic

namespace ClauseEngine

namespace Expr

/-- The kinds of nodes. -/
inductive Node where
  | const
  | var
  | bind
  | dot
  | record
  | concat
  | brand
  | unbrand
  | cast
  | left
  | right
  | either
  | cond
  | apply
  | seq
  | map
  | filter
  | choose
deriving DecidableEq, Repr

namespace Node

def all : List Node :=
  [.const, .var, .bind, .dot, .record, .concat, .brand, .unbrand, .cast, .left, .right, .either,
   .cond, .apply, .seq, .map, .filter, .choose]

/-- The tag of a kind of node. -/
def tag : Node → String
  | .const => "const"
  | .var => "var"
  | .bind => "let"
  | .dot => "dot"
  | .record => "record"
  | .concat => "concat"
  | .brand => "brand"
  | .unbrand => "unbrand"
  | .cast => "cast"
  | .left => "left"
  | .right => "right"
  | .either => "either"
  | .cond => "if"
  | .apply => "apply"
  | .seq => "seq"
  | .map => "map"
  | .filter => "filter"
  | .choose => "match"

def ofTag? (tag : String) : Option Node := all.find? fun node => node.tag == tag

end Node

namespace Reader

/-- The failure to read a node. -/
def fail {α : Type} (error : ReadError) : Result α := .error (.unreadable error)

/-- A field of a node. -/
def part (node : String) (j : Json) (name : String) : Result j.Part :=
  match j.part? name with
  | some p => .ok p
  | none => fail (.missing node name)

/-- A field of a part, as a part of the whole. -/
def innerPart (node : String) {j : Json} (outer : j.Part) (name : String) : Result j.Part := do
  let inner ← part node outer.1 name
  return ⟨inner.1, Nat.lt_trans inner.2 outer.2⟩

/-- A field that holds a string. -/
def string (node : String) (j : Json) (name : String) : Result String := do
  match (← part node j name).1 with
  | .string s => .ok s
  | _ => fail (.misshapen node name "a string")

/-- A field that holds an array, by its items. -/
def items (node : String) (j : Json) (name : String) : Result (List j.Part) := do
  let outer ← part node j name
  match outer.1.parts? with
  | some parts => return parts.map fun inner => ⟨inner.1, Nat.lt_trans inner.2 outer.2⟩
  | none => fail (.misshapen node name "an array")

/-- A field that holds an object, by its fields. -/
def entries (node : String) (j : Json) (name : String) : Result (List (String × j.Part)) := do
  let outer ← part node j name
  match outer.1.namedParts? with
  | some parts => return parts.map fun entry =>
      (entry.1, ⟨entry.2.1, Nat.lt_trans entry.2.2 outer.2⟩)
  | none => fail (.misshapen node name "an object")

/-- The target brands of a node: one under its own name, or else several in an array. -/
def brands (node : String) (j : Json) : Result (List String) := do
  match j.get? "brand" with
  | some (.string name) => return [name]
  | some _ => fail (.misshapen node "brand" "a string")
  | none =>
      match (← part node j "brands").1.array?.bind fun names => names.mapM Json.string? with
      | some names => return names
      | none => fail (.misshapen node "brands" "an array of strings")

end Reader

open Reader in
/-- Read an expression. Where several fields are at fault, the first one read decides the error. -/
def read (j : Json) : Result Expr := do
  let tag ← match (j.get? "expr").bind Json.string? with
    | some tag => pure tag
    | none => fail (.noExprTag j)
  match Node.ofTag? tag with
  | none => fail (.unknownNode tag)
  | some .const => do
      let value ← part tag j "value"
      return .const (← Value.decode value.1)
  | some .var => return .var (← string tag j "name")
  | some .bind => do
      let name ← string tag j "name"
      let ⟨value, _⟩ ← part tag j "value"
      let value ← read value
      let ⟨body, _⟩ ← part tag j "body"
      return .bind name value (← read body)
  | some .dot => do
      let ⟨target, _⟩ ← part tag j "record"
      let target ← read target
      return .dot target (← string tag j "field")
  | some .record => do
      let fields ← entries tag j "fields"
      return .record (← fields.mapM fun (name, ⟨value, _⟩) => do return (name, ← read value))
  | some .concat => do
      let ⟨first, _⟩ ← part tag j "left"
      let first ← read first
      let ⟨second, _⟩ ← part tag j "right"
      return .concat first (← read second)
  | some .brand => do
      let name ← string tag j "brand"
      let ⟨value, _⟩ ← part tag j "value"
      return .brand name (← read value)
  | some .unbrand => do
      let ⟨value, _⟩ ← part tag j "value"
      return .unbrand (← read value)
  | some .cast => do
      let targets ← brands tag j
      let ⟨value, _⟩ ← part tag j "value"
      return .cast targets (← read value)
  | some .left => do
      let ⟨value, _⟩ ← part tag j "value"
      return .left (← read value)
  | some .right => do
      let ⟨value, _⟩ ← part tag j "value"
      return .right (← read value)
  | some .either => do
      let leftBranch ← part tag j "left"
      let leftVar ← string tag leftBranch.1 "var"
      let ⟨onLeft, _⟩ ← innerPart tag leftBranch "body"
      let onLeft ← read onLeft
      let rightBranch ← part tag j "right"
      let rightVar ← string tag rightBranch.1 "var"
      let ⟨onRight, _⟩ ← innerPart tag rightBranch "body"
      let onRight ← read onRight
      let ⟨scrutinee, _⟩ ← part tag j "value"
      return .either (← read scrutinee) leftVar onLeft rightVar onRight
  | some .cond => do
      let ⟨test, _⟩ ← part tag j "cond"
      let test ← read test
      let ⟨yes, _⟩ ← part tag j "then"
      let yes ← read yes
      let ⟨no, _⟩ ← part tag j "else"
      return .cond test yes (← read no)
  | some .apply => do
      let operator ← Primitive.ofName (← string tag j "op")
      let args ← (← items tag j "args").mapM fun ⟨arg, _⟩ => read arg
      if args.length ≠ operator.arity then throw (operator.arityError args.length)
      return .apply operator args
  | some .seq => do
      return .seq (← (← items tag j "items").mapM fun ⟨item, _⟩ => read item)
  | some .map => do
      let name ← string tag j "var"
      let ⟨source, _⟩ ← part tag j "over"
      let source ← read source
      let ⟨body, _⟩ ← part tag j "body"
      return .map name source (← read body)
  | some .filter => do
      let name ← string tag j "var"
      let ⟨source, _⟩ ← part tag j "over"
      let source ← read source
      let ⟨body, _⟩ ← part tag j "body"
      return .filter name source (← read body)
  | some .choose => do
      let cases ← (← items tag j "cases").mapM fun case => do
        let targets ← brands "match case" case.1
        let name ← string "match case" case.1 "var"
        let ⟨body, _⟩ ← innerPart "match case" case "body"
        return ⟨targets, name, ← read body⟩
      let ⟨scrutinee, _⟩ ← part tag j "value"
      let scrutinee ← read scrutinee
      let ⟨otherwise, _⟩ ← part tag j "otherwise"
      return .choose scrutinee cases (← read otherwise)
termination_by j.size

end Expr

end ClauseEngine
