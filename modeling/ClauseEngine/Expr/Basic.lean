/-
Module: ClauseEngine.Expr.Basic
Purpose: Expressions of compiled contract logic.
Main exports: Case, Expr
-/
import ClauseEngine.Primitive.Table

namespace ClauseEngine

/-- A case of a choice by brand: the brands to cast to, the variable bound to the cast value, and
    the body. -/
structure Case (ε : Type) where
  brands : List String
  var : String
  body : ε

/-- An expression. -/
inductive Expr where
  | const (value : Value)
  | var (name : String)
  | bind (name : String) (value body : Expr)
  | dot (target : Expr) (field : String)
  | record (fields : List (String × Expr))
  | concat (left right : Expr)
  | brand (brand : String) (value : Expr)
  | unbrand (value : Expr)
  | cast (brands : List String) (value : Expr)
  | left (value : Expr)
  | right (value : Expr)
  | either (scrutinee : Expr) (leftVar : String) (left : Expr) (rightVar : String) (right : Expr)
  | cond (test yes no : Expr)
  | apply (operator : Primitive) (args : List Expr)
  | seq (items : List Expr)
  | map (var : String) (source body : Expr)
  | filter (var : String) (source body : Expr)
  | choose (scrutinee : Expr) (cases : List (Case Expr)) (otherwise : Expr)
deriving Inhabited

end ClauseEngine
