/-
Module: ClauseEngine.Expr.Evaluation
Purpose: Evaluating expressions. Operands are evaluated from left to right and the first error is
  the answer. The depth of a node is the number of nodes around it; a node at the limit is not
  evaluated.
Main exports: Context, Expr.evalAt, Expr.eval
-/
import ClauseEngine.Expr.Basic
import ClauseEngine.Registry

namespace ClauseEngine

/-- The variables in scope, the innermost binding of a name first. -/
abbrev Context : Type := List (String × Value)

namespace Context

/-- The scope with one more binding, which hides an outer one of the same name. -/
def bind (ctx : Context) (name : String) (value : Value) : Context := (name, value) :: ctx

def find (ctx : Context) (name : String) : Result Value :=
  match ctx.lookup name with
  | some v => .ok v
  | none => .error (.unbound name)

end Context

namespace Value

/-- Put a brand on an unbranded record. -/
def withBrand (brand : String) : Value → Result Value
  | .record fields => .ok (.branded brand fields)
  | v => .error (.notRecord (.branding v.kind brand))

/-- Take the brand off a branded record. -/
def withoutBrand : Value → Result Value
  | .branded _ fields => .ok (.record fields)
  | v => .error (.mismatch (.unbrand v.kind))

/-- The fields of two records together; the second one wins. -/
def concat (a b : Value) : Result Value := do
  let left ← a.asRecord
  let right ← b.asRecord
  return .record (Fields.overlay left right)

end Value

/-- The items that pass a test, tested from the left. -/
def filterItems (test : Value → Result Bool) : List Value → Result (List Value)
  | [] => .ok []
  | item :: rest => do
      let keep ← test item
      let others ← filterItems test rest
      return if keep then item :: others else others

namespace Expr

mutual

/-- The value of an expression at some depth. -/
def evalAt (registry : Registry) (limit depth : Nat) (ctx : Context) (e : Expr) : Result Value :=
  if limit ≤ depth then .error (.depthExceeded limit)
  else
    match e with
    | .const value => .ok value
    | .var name => ctx.find name
    | .bind name value body => do
        let v ← evalAt registry limit (depth + 1) ctx value
        evalAt registry limit (depth + 1) (ctx.bind name v) body
    | .dot target field => do
        let v ← evalAt registry limit (depth + 1) ctx target
        v.dot field
    | .record fields => do
        let values ← evalFields registry limit (depth + 1) ctx fields
        return .record (Fields.ofList values)
    | .concat first second => do
        let a ← evalAt registry limit (depth + 1) ctx first
        let b ← evalAt registry limit (depth + 1) ctx second
        Value.concat a b
    | .brand name value => do
        let v ← evalAt registry limit (depth + 1) ctx value
        v.withBrand name
    | .unbrand value => do
        let v ← evalAt registry limit (depth + 1) ctx value
        v.withoutBrand
    | .cast brands value => do
        let v ← evalAt registry limit (depth + 1) ctx value
        registry.cast brands v
    | .left value => do
        let v ← evalAt registry limit (depth + 1) ctx value
        return .left v
    | .right value => do
        let v ← evalAt registry limit (depth + 1) ctx value
        return .right v
    | .either scrutinee leftVar onLeft rightVar onRight => do
        let v ← evalAt registry limit (depth + 1) ctx scrutinee
        match v with
        | .left payload => evalAt registry limit (depth + 1) (ctx.bind leftVar payload) onLeft
        | .right payload => evalAt registry limit (depth + 1) (ctx.bind rightVar payload) onRight
        | other => .error (.mismatch (.scrutinee other.kind))
    | .cond test yes no => do
        let v ← evalAt registry limit (depth + 1) ctx test
        if ← v.asBool then evalAt registry limit (depth + 1) ctx yes
        else evalAt registry limit (depth + 1) ctx no
    | .apply operator args =>
        match operator.decidedBy? with
        | some decisive => evalConnective registry limit (depth + 1) ctx operator decisive args
        | none => do
            let values ← evalItems registry limit (depth + 1) ctx args
            operator.apply values
    | .seq items => do
        let values ← evalItems registry limit (depth + 1) ctx items
        return .seq values
    | .map name source body => do
        let v ← evalAt registry limit (depth + 1) ctx source
        let items ← v.asSeq
        let values ← items.mapM fun item =>
          evalAt registry limit (depth + 1) (ctx.bind name item) body
        return .seq values
    | .filter name source body => do
        let v ← evalAt registry limit (depth + 1) ctx source
        let items ← v.asSeq
        let kept ← filterItems (fun item => do
          let keep ← evalAt registry limit (depth + 1) (ctx.bind name item) body
          keep.asBool) items
        return .seq kept
    | .choose scrutinee cases otherwise => do
        let v ← evalAt registry limit (depth + 1) ctx scrutinee
        match ← evalCases registry limit (depth + 1) ctx v cases with
        | some result => return result
        | none => evalAt registry limit (depth + 1) ctx otherwise

/-- The values of expressions, from the left. -/
def evalItems (registry : Registry) (limit depth : Nat) (ctx : Context) :
    List Expr → Result (List Value)
  | [] => .ok []
  | item :: rest => do
      let value ← evalAt registry limit depth ctx item
      let others ← evalItems registry limit depth ctx rest
      return value :: others

/-- The values of named expressions, from the left. -/
def evalFields (registry : Registry) (limit depth : Nat) (ctx : Context) :
    List (String × Expr) → Result (List (String × Value))
  | [] => .ok []
  | (name, item) :: rest => do
      let value ← evalAt registry limit depth ctx item
      let others ← evalFields registry limit depth ctx rest
      return (name, value) :: others

/-- A logical connective. Its second operand is evaluated only if the first does not settle the
    matter. -/
def evalConnective (registry : Registry) (limit depth : Nat) (ctx : Context)
    (operator : Primitive) (decisive : Bool) : List Expr → Result Value
  | [first, second] => do
      let v ← evalAt registry limit depth ctx first
      if (← v.asBool) = decisive then return .bool decisive
      else
        let w ← evalAt registry limit depth ctx second
        return .bool (← w.asBool)
  | args => .error (operator.arityError args.length)

/-- The value of the first case that the scrutinee can be cast to, if there is one. -/
def evalCases (registry : Registry) (limit depth : Nat) (ctx : Context) (v : Value) :
    List (Case Expr) → Result (Option Value)
  | [] => .ok none
  | ⟨brands, name, body⟩ :: rest => do
      match ← registry.cast brands v with
      | .left matched => some <$> evalAt registry limit depth (ctx.bind name matched) body
      | _ => evalCases registry limit depth ctx v rest

end

/-- The value of an expression in a scope. -/
def eval (registry : Registry) (limit : Nat) (ctx : Context) (e : Expr) : Result Value :=
  evalAt registry limit 0 ctx e

end Expr

end ClauseEngine
