/-
Module: ClauseEngine.Proofs.Expr.Values
Purpose: Rules for the values of expressions. An expression comes to a value if every evaluation with
  as many levels left as the expression is high gives it; the value of a node follows from those of
  its sub-expressions, so that a whole body can be worked out from its parts without counting levels.
Main exports: Expr.ComesTo, Expr.ComesTo.eval, Expr.comesTo_const, Expr.comesTo_var,
  Expr.ComesTo.bind, Expr.ComesTo.dot, Expr.ComesTo.record, Expr.ComesTo.brand,
  Expr.ComesTo.unbrand, Expr.ComesTo.left, Expr.ComesTo.right, Expr.ComesTo.cond,
  Expr.ComesTo.apply, Expr.ComesTo.connective
-/
import ClauseEngine.Proofs.Expr.Scopes
import ClauseEngine.Proofs.Fields
import Mathlib.Data.List.Forall2

namespace ClauseEngine

namespace Expr

/-- An expression comes to a value in a scope, wherever there are enough levels left. -/
def ComesTo (registry : Registry) (ctx : Context) (e : Expr) (v : Value) : Prop :=
  ∀ limit depth, e.height + depth ≤ limit → evalAt registry limit depth ctx e = .ok v

variable {registry : Registry} {ctx : Context} {e : Expr} {v w : Value} {name : String}

/-- An expression comes to its value under every limit that is no less than its height. -/
theorem ComesTo.eval (h : ComesTo registry ctx e v) {limit : Nat} (hlimit : e.height ≤ limit) :
    eval registry limit ctx e = .ok v :=
  h limit 0 hlimit

section Levels

variable {limit depth : Nat}

theorem not_le_of_height (h : e.height + depth ≤ limit) : ¬ limit ≤ depth := by
  rw [height_eq] at h
  omega

/-- A sub-expression is evaluated a level further down, and it is less high than its node. -/
theorem inner_height_le {inner : Expr} (h : e.height + depth ≤ limit)
    (hinner : inner ∈ e.scopes.map Prod.snd) : inner.height + (depth + 1) ≤ limit := by
  obtain ⟨scope, hscope, rfl⟩ := List.mem_map.1 hinner
  have hheight := height_lt_of_mem_scopes hscope
  omega

theorem evalItems_of_comesTo {items : List Expr} {values : List Value}
    (h : List.Forall₂ (ComesTo registry ctx) items values)
    (hlimit : ∀ item ∈ items, item.height + depth ≤ limit) :
    evalItems registry limit depth ctx items = .ok values := by
  induction h with
  | nil => rfl
  | cons hitem _ ih =>
      obtain ⟨hfirst, hrest⟩ := List.forall_mem_cons.1 hlimit
      rw [evalItems, hitem _ _ hfirst, ih hrest]
      rfl

theorem evalFields_of_comesTo {fields : List (String × Expr)} {values : List Value}
    (h : List.Forall₂ (ComesTo registry ctx) (fields.map Prod.snd) values)
    (hlimit : ∀ field ∈ fields, field.2.height + depth ≤ limit) :
    evalFields registry limit depth ctx fields = .ok ((fields.map Prod.fst).zip values) := by
  induction fields generalizing values with
  | nil => rfl
  | cons field rest ih =>
      cases h with
      | cons hfield hfields =>
          obtain ⟨hfirst, hrest⟩ := List.forall_mem_cons.1 hlimit
          rw [evalFields, hfield _ _ hfirst, ih hfields hrest]
          rfl

end Levels

/-! ### One rule for each kind of node

The rules have the shape of an evaluation relation: what the sub-expressions come to, in which
scope, and what the node makes of it. The levels needed are settled once, by the height of the node.
-/

theorem comesTo_const (v : Value) : ComesTo registry ctx (.const v) v := by
  intro limit depth hlimit
  rw [evalAt.eq_def, if_neg (not_le_of_height hlimit)]

/-- A variable comes to what is bound under its name. -/
theorem comesTo_var (h : ctx.lookup name = some v) : ComesTo registry ctx (.var name) v := by
  intro limit depth hlimit
  rw [evalAt.eq_def, if_neg (not_le_of_height hlimit)]
  simp only [Context.find, h]

/-- A binding comes to what its body comes to in the wider scope. -/
theorem ComesTo.bind {value body : Expr} (hvalue : ComesTo registry ctx value v)
    (hbody : ComesTo registry (ctx.bind name v) body w) :
    ComesTo registry ctx (.bind name value body) w := by
  intro limit depth hlimit
  have hvalue := hvalue _ _ (inner_height_le hlimit (by simp [scopes]))
  have hbody := hbody _ _ (inner_height_le hlimit (by simp [scopes]))
  rw [evalAt.eq_def, if_neg (not_le_of_height hlimit)]
  simp only [hvalue, ok_bind, hbody]

/-- A field of a record. -/
theorem ComesTo.dot {target : Expr} {fields : List (String × Value)}
    (htarget : ComesTo registry ctx target (.record fields)) (hfield : fields.lookup name = some v) :
    ComesTo registry ctx (.dot target name) v := by
  intro limit depth hlimit
  have htarget := htarget _ _ (inner_height_le hlimit (by simp [scopes]))
  rw [evalAt.eq_def, if_neg (not_le_of_height hlimit)]
  simp only [htarget, ok_bind, Value.dot, Value.asRecord, Value.fieldOf, hfield]

/-- A record whose names ascend. -/
theorem ComesTo.record {fields : List (String × Expr)} {values : List Value}
    {stored : List (String × Value)} (hordered : Fields.Ordered stored)
    (h : List.Forall₂ (ComesTo registry ctx) (fields.map Prod.snd) values)
    (hstored : (fields.map Prod.fst).zip values = stored) :
    ComesTo registry ctx (.record fields) (.record stored) := by
  intro limit depth hlimit
  have hvalues := evalFields_of_comesTo h fun field hfield =>
    inner_height_le hlimit (List.mem_map.2 ⟨(none, field.2), List.mem_map.2 ⟨field, hfield, rfl⟩, rfl⟩)
  rw [evalAt.eq_def, if_neg (not_le_of_height hlimit)]
  simp only [hvalues, hstored, ok_bind, Fields.ofList_eq_self hordered]
  rfl

theorem ComesTo.brand {value : Expr} {fields : List (String × Value)}
    (h : ComesTo registry ctx value (.record fields)) :
    ComesTo registry ctx (.brand name value) (.branded name fields) := by
  intro limit depth hlimit
  have hvalue := h _ _ (inner_height_le hlimit (by simp [scopes]))
  rw [evalAt.eq_def, if_neg (not_le_of_height hlimit)]
  simp only [hvalue, ok_bind, Value.withBrand]

theorem ComesTo.unbrand {value : Expr} {brand : String} {fields : List (String × Value)}
    (h : ComesTo registry ctx value (.branded brand fields)) :
    ComesTo registry ctx (.unbrand value) (.record fields) := by
  intro limit depth hlimit
  have hvalue := h _ _ (inner_height_le hlimit (by simp [scopes]))
  rw [evalAt.eq_def, if_neg (not_le_of_height hlimit)]
  simp only [hvalue, ok_bind, Value.withoutBrand]

theorem ComesTo.left {value : Expr} (h : ComesTo registry ctx value v) :
    ComesTo registry ctx (.left value) (.left v) := by
  intro limit depth hlimit
  have hvalue := h _ _ (inner_height_le hlimit (by simp [scopes]))
  rw [evalAt.eq_def, if_neg (not_le_of_height hlimit)]
  simp only [hvalue, ok_bind]
  rfl

theorem ComesTo.right {value : Expr} (h : ComesTo registry ctx value v) :
    ComesTo registry ctx (.right value) (.right v) := by
  intro limit depth hlimit
  have hvalue := h _ _ (inner_height_le hlimit (by simp [scopes]))
  rw [evalAt.eq_def, if_neg (not_le_of_height hlimit)]
  simp only [hvalue, ok_bind]
  rfl

/-- Of the two branches only the one that is taken has to have a value. -/
theorem ComesTo.cond {test yes no : Expr} {b : Bool} (htest : ComesTo registry ctx test (.bool b))
    (hyes : b = true → ComesTo registry ctx yes v) (hno : b = false → ComesTo registry ctx no v) :
    ComesTo registry ctx (.cond test yes no) v := by
  intro limit depth hlimit
  have htest := htest _ _ (inner_height_le hlimit (by simp [scopes]))
  rw [evalAt.eq_def, if_neg (not_le_of_height hlimit)]
  simp only [htest, ok_bind, Value.asBool]
  cases b with
  | true => exact hyes rfl _ _ (inner_height_le hlimit (by simp [scopes]))
  | false => exact hno rfl _ _ (inner_height_le hlimit (by simp [scopes]))

/-- An operator that takes all its operands. -/
theorem ComesTo.apply {operator : Primitive} {args : List Expr} {values : List Value}
    (hstrict : operator.decidedBy? = none) (hargs : List.Forall₂ (ComesTo registry ctx) args values)
    (happly : operator.apply values = .ok v) :
    ComesTo registry ctx (.apply operator args) v := by
  intro limit depth hlimit
  have hvalues := evalItems_of_comesTo hargs fun arg harg =>
    inner_height_le hlimit (List.mem_map.2 ⟨(none, arg), List.mem_map.2 ⟨arg, harg, rfl⟩, rfl⟩)
  rw [evalAt.eq_def, if_neg (not_le_of_height hlimit)]
  simp only [hstrict, hvalues, ok_bind, happly]

/-- A connective whose second operand is looked at only if the first does not settle the matter. -/
theorem ComesTo.connective {operator : Primitive} {decisive a b : Bool} {first second : Expr}
    (hoperator : operator.decidedBy? = some decisive) (hfirst : ComesTo registry ctx first (.bool a))
    (hsecond : a ≠ decisive → ComesTo registry ctx second (.bool b)) :
    ComesTo registry ctx (.apply operator [first, second])
      (.bool (if a = decisive then decisive else b)) := by
  intro limit depth hlimit
  have hfirst := hfirst _ _ (inner_height_le hlimit (by simp [scopes]))
  rw [evalAt.eq_def, if_neg (not_le_of_height hlimit)]
  simp only [hoperator, evalConnective, hfirst, ok_bind, Value.asBool]
  split
  · rfl
  · rename_i hundecided
    have hsecond := hsecond hundecided _ _ (inner_height_le hlimit (by simp [scopes]))
    simp only [hsecond, ok_bind]
    rfl

end Expr

end ClauseEngine
