/-
Module: ClauseEngine.Proofs.Expr.Scopes
Purpose: What one node of an expression does with its sub-expressions. Every sub-expression is
  evaluated one level deeper, in the scope of its node or in that scope with one more binding. Two
  evaluations of a node are therefore related as soon as those of its sub-expressions are, for any
  relation that sequencing keeps; properties of whole evaluations follow by induction on
  expressions. The second evaluation may be of the same node with other sub-expressions.
Main exports: Expr.scopes, Expr.mapScopes, Expr.scopes_induction, Expr.OwnError, StepRelation,
  Expr.evalAt_mapScopes_related, Expr.evalAt_related, Expr.evalAt_raisesOnly,
  Expr.evalAt_errors_induction
-/
import ClauseEngine.Expr.Evaluation
import ClauseEngine.Proofs.Primitive.Errors

namespace ClauseEngine

/-! ### Sub-expressions and their scopes

The sub-expressions of a node are listed with the variable that the node binds in each of them.
Being lower than their node, they carry an induction over expressions that does not mention the
kinds of nodes. -/

/-- The scope of a sub-expression: that of its node, or one with a variable of the node bound. -/
def Context.under (ctx : Context) : Option String → Value → Context
  | none, _ => ctx
  | some name, v => ctx.bind name v

/-- Looking a name up fails only if it is unbound. -/
theorem Context.find_raisesOnly (ctx : Context) (name : String) :
    RaisesOnly (fun error => error = .unbound name ∧ ctx.lookup name = none) (ctx.find name) := by
  unfold find
  split
  · exact raisesOnly_ok _
  · rename_i hnone
    exact raisesOnly_error.2 ⟨rfl, hnone⟩

namespace Expr

/-- The sub-expressions of a node, each with the variable that the node binds in it. -/
def scopes : Expr → List (Option String × Expr)
  | .const _ => []
  | .var _ => []
  | .bind name value body => [(none, value), (some name, body)]
  | .dot target _ => [(none, target)]
  | .record fields => fields.map fun field => (none, field.2)
  | .concat first second => [(none, first), (none, second)]
  | .brand _ value => [(none, value)]
  | .unbrand value => [(none, value)]
  | .cast _ value => [(none, value)]
  | .left value => [(none, value)]
  | .right value => [(none, value)]
  | .either scrutinee leftVar onLeft rightVar onRight =>
      [(none, scrutinee), (some leftVar, onLeft), (some rightVar, onRight)]
  | .cond test yes no => [(none, test), (none, yes), (none, no)]
  | .apply _ args => args.map fun arg => (none, arg)
  | .seq items => items.map fun item => (none, item)
  | .map name source body => [(none, source), (some name, body)]
  | .filter name source body => [(none, source), (some name, body)]
  | .choose scrutinee cases otherwise =>
      (none, scrutinee) :: (none, otherwise) :: cases.map fun case => (some case.var, case.body)

/-- The same node with each sub-expression replaced. What replaces it may depend on the variable
    that is bound in it. -/
def mapScopes (f : Option String → Expr → Expr) : Expr → Expr
  | .const value => .const value
  | .var name => .var name
  | .bind name value body => .bind name (f none value) (f (some name) body)
  | .dot target field => .dot (f none target) field
  | .record fields => .record (fields.map fun field => (field.1, f none field.2))
  | .concat first second => .concat (f none first) (f none second)
  | .brand name value => .brand name (f none value)
  | .unbrand value => .unbrand (f none value)
  | .cast brands value => .cast brands (f none value)
  | .left value => .left (f none value)
  | .right value => .right (f none value)
  | .either scrutinee leftVar onLeft rightVar onRight =>
      .either (f none scrutinee) leftVar (f (some leftVar) onLeft) rightVar
        (f (some rightVar) onRight)
  | .cond test yes no => .cond (f none test) (f none yes) (f none no)
  | .apply operator args => .apply operator (args.map (f none))
  | .seq items => .seq (items.map (f none))
  | .map name source body => .map name (f none source) (f (some name) body)
  | .filter name source body => .filter name (f none source) (f (some name) body)
  | .choose scrutinee cases otherwise =>
      .choose (f none scrutinee)
        (cases.map fun case => ⟨case.brands, case.var, f (some case.var) case.body⟩)
        (f none otherwise)

/-- Leaving all sub-expressions as they are leaves the node as it is. -/
theorem mapScopes_self (e : Expr) : e.mapScopes (fun _ child => child) = e := by
  cases e <;> simp [mapScopes]

mutual

/-- The number of nodes on the longest path down an expression. -/
def height : Expr → Nat
  | .const _ => 1
  | .var _ => 1
  | .bind _ value body => 1 + max value.height body.height
  | .dot target _ => 1 + target.height
  | .record fields => 1 + heightFields fields
  | .concat first second => 1 + max first.height second.height
  | .brand _ value => 1 + value.height
  | .unbrand value => 1 + value.height
  | .cast _ value => 1 + value.height
  | .left value => 1 + value.height
  | .right value => 1 + value.height
  | .either scrutinee _ onLeft _ onRight =>
      1 + max scrutinee.height (max onLeft.height onRight.height)
  | .cond test yes no => 1 + max test.height (max yes.height no.height)
  | .apply _ args => 1 + heightItems args
  | .seq items => 1 + heightItems items
  | .map _ source body => 1 + max source.height body.height
  | .filter _ source body => 1 + max source.height body.height
  | .choose scrutinee cases otherwise =>
      1 + max scrutinee.height (max otherwise.height (heightCases cases))

/-- The greatest height in a list of expressions. -/
def heightItems : List Expr → Nat
  | [] => 0
  | item :: rest => max item.height (heightItems rest)

/-- The greatest height in a list of named expressions. -/
def heightFields : List (String × Expr) → Nat
  | [] => 0
  | (_, value) :: rest => max value.height (heightFields rest)

/-- The greatest height of a body in a list of cases. -/
def heightCases : List (Case Expr) → Nat
  | [] => 0
  | ⟨_, _, body⟩ :: rest => max body.height (heightCases rest)

end

theorem heightItems_eq (items : List Expr) :
    heightItems items = (items.map height).foldr max 0 := by
  induction items with
  | nil => rfl
  | cons item rest ih => simp [heightItems, ih]

theorem heightFields_eq (fields : List (String × Expr)) :
    heightFields fields = (fields.map (·.2.height)).foldr max 0 := by
  induction fields with
  | nil => rfl
  | cons field rest ih => simp [heightFields, ih]

theorem heightCases_eq (cases : List (Case Expr)) :
    heightCases cases = (cases.map (·.body.height)).foldr max 0 := by
  induction cases with
  | nil => rfl
  | cons case rest ih => simp [heightCases, ih]

/-- A node is one higher than the highest of its sub-expressions. -/
theorem height_eq (e : Expr) : e.height = 1 + (e.scopes.map (·.2.height)).foldr max 0 := by
  cases e <;> simp [height, scopes, heightItems_eq, heightFields_eq, heightCases_eq,
    Function.comp_def]

theorem le_foldr_max {n : Nat} {numbers : List Nat} (h : n ∈ numbers) :
    n ≤ numbers.foldr max 0 := by
  induction numbers with
  | nil => cases h
  | cons first rest ih =>
      rcases List.mem_cons.1 h with rfl | h
      · exact Nat.le_max_left _ _
      · exact Nat.le_trans (ih h) (Nat.le_max_right _ _)

/-- A sub-expression is lower than its node. -/
theorem height_lt_of_mem_scopes {e : Expr} {scope : Option String × Expr} (h : scope ∈ e.scopes) :
    scope.2.height < e.height := by
  have hle := le_foldr_max (List.mem_map_of_mem h : scope.2.height ∈ e.scopes.map (·.2.height))
  rw [height_eq e]
  omega

/-- What holds of a node whenever it holds of its sub-expressions holds of all expressions. -/
theorem scopes_induction {motive : Expr → Prop}
    (node : ∀ e, (∀ scope ∈ e.scopes, motive scope.2) → motive e) (e : Expr) : motive e := by
  induction hn : e.height using Nat.strongRecOn generalizing e with
  | ind n ih =>
      subst hn
      exact node e fun scope hscope => ih _ (height_lt_of_mem_scopes hscope) scope.2 rfl

end Expr

/-! ### Relations that sequencing keeps

A relation between two computations that holds of equal steps and passes through sequencing holds of
whole evaluations. Equality is of this form, and so are being cut off by a limit and, with nothing
asked of the second computation, raising certain errors only. -/

/-- A relation of two computations that holds of every step that fails with its own errors only, and
    of two sequences of steps whose steps are related. -/
structure StepRelation (own : EvalError → Prop)
    (Rel : ∀ ⦃α : Type⦄, Result α → Result α → Prop) : Prop where
  same : ∀ {α : Type} {r : Result α}, RaisesOnly own r → Rel r r
  bind : ∀ {α β : Type} {x y : Result α} {f g : α → Result β},
    Rel x y → (∀ a, x = .ok a → Rel (f a) (g a)) → Rel (x >>= f) (y >>= g)

namespace StepRelation

variable {own : EvalError → Prop} {Rel : ∀ ⦃α : Type⦄, Result α → Result α → Prop}
variable {α β : Type}

theorem pure (h : StepRelation own Rel) (a : α) : Rel (.ok a) (.ok a) := h.same (raisesOnly_ok a)

/-- Steps over a list are related if each of them is. -/
theorem mapM (h : StepRelation own Rel) {f g : α → Result β} {items : List α}
    (hitems : ∀ item ∈ items, Rel (f item) (g item)) : Rel (items.mapM f) (items.mapM g) := by
  induction items with
  | nil => exact h.pure []
  | cons item rest ih =>
      have hrest := ih fun other hother => hitems other (List.mem_cons_of_mem _ hother)
      rw [List.mapM_cons, List.mapM_cons]
      exact h.bind (hitems item List.mem_cons_self) fun _ _ => h.bind hrest fun _ _ => h.pure _

theorem filterItems (h : StepRelation own Rel) {f g : Value → Result Bool} {items : List Value}
    (hitems : ∀ item ∈ items, Rel (f item) (g item)) :
    Rel (filterItems f items) (filterItems g items) := by
  induction items with
  | nil => exact h.pure []
  | cons item rest ih =>
      have hrest := ih fun other hother => hitems other (List.mem_cons_of_mem _ hother)
      exact h.bind (hitems item List.mem_cons_self) fun _ _ => h.bind hrest fun _ _ => h.pure _

end StepRelation

/-- A property of errors is a relation of this kind, with nothing asked of the second
    computation. -/
theorem StepRelation.raisesOnly {own P : EvalError → Prop} (h : ∀ error, own error → P error) :
    StepRelation own fun _ r _ => RaisesOnly P r where
  same hr := hr.mono h
  bind hx hf := raisesOnly_bind.2 ⟨hx, hf⟩

/-! ### One node

The kinds of nodes are gone through once, for a node that is evaluated in two ways and with each of
its steps related to the corresponding one. What is said of variables, of depths and of errors are
instances. -/

namespace Value

@[simp] theorem withBrand_operandErrors (brand : String) (v : Value) :
    OperandErrors (v.withBrand brand) := by
  unfold withBrand
  split <;> simp

@[simp] theorem withoutBrand_operandErrors (v : Value) : OperandErrors v.withoutBrand := by
  unfold withoutBrand
  split <;> simp

@[simp] theorem concat_operandErrors (a b : Value) : OperandErrors (concat a b) := by
  simp [concat]

end Value

/-- A cast fails only where several targets are not allowed. -/
theorem Registry.cast_raisesOnly (registry : Registry) (targets : List String) (v : Value) :
    RaisesOnly (fun error => registry.multiBrandCast = false ∧
      error = .unsupportedCast targets.length) (registry.cast targets v) := by
  unfold cast
  split
  · rename_i h
    exact raisesOnly_error.2 ⟨h.2, rfl⟩
  · split <;> simp

/-- The connectives take two arguments. -/
theorem Primitive.arity_of_decidedBy (operator : Primitive) {decisive : Bool}
    (h : operator.decidedBy? = some decisive) : operator.arity = 2 := by
  cases operator with
  | and => rfl
  | or => rfl
  | _ => cases h

namespace Expr

/-- The errors that a node raises by itself, and not through a variable or a sub-expression. -/
inductive OwnError (registry : Registry) (e : Expr) : EvalError → Prop
  | operands {error : EvalError} (h : error.OfOperands) : OwnError registry e error
  | arity {operator : Primitive} {args : List Expr} (he : e = .apply operator args)
      (h : args.length ≠ operator.arity) : OwnError registry e (operator.arityError args.length)
  | cast {count : Nat} (h : registry.multiBrandCast = false) :
      OwnError registry e (.unsupportedCast count)

section Related

variable {Rel : ∀ ⦃α : Type⦄, Result α → Result α → Prop} {own : EvalError → Prop}
variable {registry : Registry} {limit depth limit' depth' : Nat} {ctx ctx' : Context}

theorem evalItems_related (h : StepRelation own Rel) {f : Expr → Expr} {items : List Expr}
    (hitems : ∀ item ∈ items,
      Rel (evalAt registry limit depth ctx item) (evalAt registry limit' depth' ctx' (f item))) :
    Rel (evalItems registry limit depth ctx items)
      (evalItems registry limit' depth' ctx' (items.map f)) := by
  induction items with
  | nil => exact h.pure []
  | cons item rest ih =>
      have hrest := ih fun other hother => hitems other (List.mem_cons_of_mem _ hother)
      exact h.bind (hitems item List.mem_cons_self) fun _ _ => h.bind hrest fun _ _ => h.pure _

/-- There are as many values as sub-expressions. -/
theorem length_of_evalItems {items : List Expr} {values : List Value}
    (h : evalItems registry limit depth ctx items = .ok values) :
    values.length = items.length := by
  induction items generalizing values with
  | nil =>
      cases h
      rfl
  | cons item rest ih =>
      obtain ⟨value, _, h⟩ := bind_eq_ok_iff.1 h
      obtain ⟨others, hothers, h⟩ := bind_eq_ok_iff.1 h
      cases h
      simp [ih hothers]

theorem evalFields_related (h : StepRelation own Rel) {f : Expr → Expr}
    {fields : List (String × Expr)}
    (hfields : ∀ field ∈ fields,
      Rel (evalAt registry limit depth ctx field.2)
        (evalAt registry limit' depth' ctx' (f field.2))) :
    Rel (evalFields registry limit depth ctx fields)
      (evalFields registry limit' depth' ctx' (fields.map fun field => (field.1, f field.2))) := by
  induction fields with
  | nil => exact h.pure []
  | cons field rest ih =>
      have hrest := ih fun other hother => hfields other (List.mem_cons_of_mem _ hother)
      exact h.bind (hfields field List.mem_cons_self) fun _ _ => h.bind hrest fun _ _ => h.pure _

/-- Cases are tried by the same casts in both evaluations, so that the same case applies. -/
theorem evalCases_related (h : StepRelation own Rel) {f : Option String → Expr → Expr} {v : Value}
    {cases : List (Case Expr)} (hcast : ∀ targets, RaisesOnly own (registry.cast targets v))
    (hcases : ∀ case ∈ cases, ∀ matched,
      Rel (evalAt registry limit depth (ctx.bind case.var matched) case.body)
        (evalAt registry limit' depth' (ctx'.bind case.var matched)
          (f (some case.var) case.body))) :
    Rel (evalCases registry limit depth ctx v cases)
      (evalCases registry limit' depth' ctx' v
        (cases.map fun case => ⟨case.brands, case.var, f (some case.var) case.body⟩)) := by
  induction cases with
  | nil => exact h.pure none
  | cons case rest ih =>
      have hrest := ih fun other hother => hcases other (List.mem_cons_of_mem _ hother)
      refine h.bind (h.same (hcast case.brands)) fun answer _ => ?_
      cases answer with
      | left matched =>
          exact h.bind (hcases case List.mem_cons_self matched) fun _ _ => h.pure _
      | _ => exact hrest

/-- A connective without its two operands says how many it has. -/
theorem evalConnective_of_length_ne {operator : Primitive} {decisive : Bool} {args : List Expr}
    (h : args.length ≠ 2) :
    evalConnective registry limit depth ctx operator decisive args =
      .error (operator.arityError args.length) := by
  unfold evalConnective
  split
  · exact absurd rfl h
  · rfl

/-- The first operand decides alike in both evaluations whether the second is looked at. -/
theorem evalConnective_related {f : Expr → Expr} {operator : Primitive} {decisive : Bool}
    {args : List Expr} (h : StepRelation (OwnError registry (.apply operator args)) Rel)
    (hoperator : operator.decidedBy? = some decisive)
    (hargs : ∀ arg ∈ args,
      Rel (evalAt registry limit depth ctx arg) (evalAt registry limit' depth' ctx' (f arg))) :
    Rel (evalConnective registry limit depth ctx operator decisive args)
      (evalConnective registry limit' depth' ctx' operator decisive (args.map f)) := by
  have hbool (v : Value) : Rel v.asBool v.asBool :=
    h.same (v.asBool_operandErrors.mono fun _ => .operands)
  have harity : operator.arity = 2 := operator.arity_of_decidedBy hoperator
  by_cases hlength : args.length = 2
  · match args, hlength with
    | [first, second], _ =>
      refine h.bind (hargs first (by simp)) fun v _ => h.bind (hbool v) fun b _ => ?_
      split
      · exact h.pure _
      · exact h.bind (hargs second (by simp)) fun w _ => h.bind (hbool w) fun _ _ => h.pure _
  · rw [evalConnective_of_length_ne hlength,
      evalConnective_of_length_ne (by rwa [List.length_map]), List.length_map]
    exact h.same (raisesOnly_error.2 (.arity rfl (harity ▸ hlength)))

/-- A node at the limit is not evaluated. -/
theorem evalAt_of_le {e : Expr} (h : limit ≤ depth) :
    evalAt registry limit depth ctx e = .error (.depthExceeded limit) := by
  rw [evalAt.eq_def, if_pos h]

/-- The evaluations of a node and of the same node with other sub-expressions are related if those
    of the sub-expressions are, in every scope that the node opens, and those of the variable are if
    the node is one. -/
theorem evalAt_mapScopes_related {f : Option String → Expr → Expr} {e : Expr}
    (h : StepRelation (OwnError registry e) Rel) (hlimit : depth < limit)
    (hlimit' : depth' < limit')
    (hvar : ∀ name, e = .var name → Rel (ctx.find name) (ctx'.find name))
    (hscopes : ∀ scope ∈ e.scopes, ∀ v,
      Rel (evalAt registry limit (depth + 1) (ctx.under scope.1 v) scope.2)
        (evalAt registry limit' (depth' + 1) (ctx'.under scope.1 v) (f scope.1 scope.2))) :
    Rel (evalAt registry limit depth ctx e)
      (evalAt registry limit' depth' ctx' (e.mapScopes f)) := by
  have hown {α : Type} {r : Result α} (hr : OperandErrors r) : Rel r r :=
    h.same (hr.mono fun _ => .operands)
  have hcast (targets : List String) (v : Value) :
      RaisesOnly (OwnError registry e) (registry.cast targets v) :=
    (registry.cast_raisesOnly targets v).mono fun _ ⟨hmulti, herror⟩ => herror ▸ .cast hmulti
  have houter {child : Expr} (hchild : (none, child) ∈ e.scopes) :
      Rel (evalAt registry limit (depth + 1) ctx child)
        (evalAt registry limit' (depth' + 1) ctx' (f none child)) :=
    hscopes _ hchild .unit
  have hinner {name : String} {child : Expr} (hchild : (some name, child) ∈ e.scopes) (v : Value) :
      Rel (evalAt registry limit (depth + 1) (ctx.bind name v) child)
        (evalAt registry limit' (depth' + 1) (ctx'.bind name v) (f (some name) child)) :=
    hscopes _ hchild v
  rw [evalAt.eq_def, evalAt.eq_def, if_neg (Nat.not_le.2 hlimit), if_neg (Nat.not_le.2 hlimit')]
  cases e with
  | const value => exact h.pure value
  | var name => exact hvar name rfl
  | bind name value body =>
      exact h.bind (houter (by simp [scopes])) fun v _ => hinner (by simp [scopes]) v
  | dot target field =>
      exact h.bind (houter (by simp [scopes])) fun v _ => hown (v.dot_operandErrors field)
  | record fields =>
      refine h.bind (evalFields_related h fun field hfield => houter ?_) fun _ _ => h.pure _
      exact List.mem_map.2 ⟨field, hfield, rfl⟩
  | concat first second =>
      refine h.bind (houter (by simp [scopes])) fun a _ => ?_
      exact h.bind (houter (by simp [scopes])) fun b _ => hown (a.concat_operandErrors b)
  | brand name value =>
      exact h.bind (houter (by simp [scopes])) fun v _ => hown (v.withBrand_operandErrors name)
  | unbrand value =>
      exact h.bind (houter (by simp [scopes])) fun v _ => hown v.withoutBrand_operandErrors
  | cast brands value =>
      exact h.bind (houter (by simp [scopes])) fun v _ => h.same (hcast brands v)
  | left value => exact h.bind (houter (by simp [scopes])) fun _ _ => h.pure _
  | right value => exact h.bind (houter (by simp [scopes])) fun _ _ => h.pure _
  | either scrutinee leftVar onLeft rightVar onRight =>
      refine h.bind (houter (by simp [scopes])) fun v _ => ?_
      cases v with
      | left payload => exact hinner (by simp [scopes]) payload
      | right payload => exact hinner (by simp [scopes]) payload
      | _ => exact hown (by simp)
  | cond test yes no =>
      refine h.bind (houter (by simp [scopes])) fun v _ => h.bind (hown (by simp)) fun b _ => ?_
      cases b with
      | true => exact houter (by simp [scopes])
      | false => exact houter (by simp [scopes])
  | apply operator args =>
      have hargs : ∀ arg ∈ args, Rel (evalAt registry limit (depth + 1) ctx arg)
          (evalAt registry limit' (depth' + 1) ctx' (f none arg)) :=
        fun arg harg => houter (List.mem_map.2 ⟨arg, harg, rfl⟩)
      cases hoperator : operator.decidedBy? with
      | some decisive =>
          simp only [mapScopes, hoperator]
          exact evalConnective_related h hoperator hargs
      | none =>
          simp only [mapScopes, hoperator]
          refine h.bind (evalItems_related h hargs) fun values hvalues => h.same ?_
          refine (operator.apply_raisesOnly values).mono fun error herror => ?_
          rw [length_of_evalItems hvalues] at herror
          rcases herror with hoperands | ⟨hlength, rfl⟩
          · exact .operands hoperands
          · exact .arity rfl hlength
  | seq items =>
      refine h.bind (evalItems_related h fun item hitem => houter ?_) fun _ _ => h.pure _
      exact List.mem_map.2 ⟨item, hitem, rfl⟩
  | map name source body =>
      refine h.bind (houter (by simp [scopes])) fun v _ => h.bind (hown (by simp)) fun items _ => ?_
      exact h.bind (h.mapM fun item _ => hinner (by simp [scopes]) item) fun _ _ => h.pure _
  | filter name source body =>
      refine h.bind (houter (by simp [scopes])) fun v _ => h.bind (hown (by simp)) fun items _ => ?_
      refine h.bind (h.filterItems fun item _ => ?_) fun _ _ => h.pure _
      exact h.bind (hinner (by simp [scopes]) item) fun keep _ => hown keep.asBool_operandErrors
  | choose scrutinee cases otherwise =>
      refine h.bind (houter (by simp [scopes])) fun v _ => ?_
      refine h.bind (evalCases_related h (hcast · v) fun case hcase => hinner ?_) fun answer _ => ?_
      · exact .tail _ (.tail _ (List.mem_map.2 ⟨case, hcase, rfl⟩))
      · cases answer with
        | some result => exact h.pure result
        | none => exact houter (by simp [scopes])

/-- Two evaluations of a node are related if those of its sub-expressions are, in every scope that
    the node opens, and those of the variable are if the node is one. -/
theorem evalAt_related {e : Expr} (h : StepRelation (OwnError registry e) Rel)
    (hlimit : depth < limit) (hlimit' : depth' < limit')
    (hvar : ∀ name, e = .var name → Rel (ctx.find name) (ctx'.find name))
    (hscopes : ∀ scope ∈ e.scopes, ∀ v,
      Rel (evalAt registry limit (depth + 1) (ctx.under scope.1 v) scope.2)
        (evalAt registry limit' (depth' + 1) (ctx'.under scope.1 v) scope.2)) :
    Rel (evalAt registry limit depth ctx e) (evalAt registry limit' depth' ctx' e) := by
  have hnode := evalAt_mapScopes_related (f := fun _ child => child) h hlimit hlimit' hvar hscopes
  rw [mapScopes_self] at hnode
  exact hnode

/-- The errors of a node are its own, those of its variable and those of its sub-expressions. -/
theorem evalAt_raisesOnly {P : EvalError → Prop} {e : Expr}
    (hown : ∀ error, OwnError registry e error → P error) (hlimit : depth < limit)
    (hvar : ∀ name, e = .var name → RaisesOnly P (ctx.find name))
    (hscopes : ∀ scope ∈ e.scopes, ∀ v,
      RaisesOnly P (evalAt registry limit (depth + 1) (ctx.under scope.1 v) scope.2)) :
    RaisesOnly P (evalAt registry limit depth ctx e) := by
  have h : StepRelation (OwnError registry e) fun _ r _ => RaisesOnly P r := .raisesOnly hown
  exact @evalAt_related _ _ _ _ _ _ ctx ctx e h hlimit hlimit hvar hscopes

/-- Every error of an evaluation is raised at one of its nodes: at the limit, by the node itself, or
    by an unbound variable. What holds of the error there, and goes from a sub-expression on to its
    node, holds of it for the whole expression. -/
theorem evalAt_errors_induction {P : Context → Expr → EvalError → Prop}
    (exceeded : ∀ ctx e, P ctx e (.depthExceeded limit))
    (own : ∀ ctx e error, OwnError registry e error → P ctx e error)
    (unbound : ∀ ctx name, ctx.lookup name = none → P ctx (.var name) (.unbound name))
    (scope : ∀ ctx e error, ∀ scope ∈ e.scopes, ∀ v,
      P (ctx.under scope.1 v) scope.2 error → P ctx e error) (e : Expr) :
    RaisesOnly (P ctx e) (evalAt registry limit depth ctx e) := by
  induction e using scopes_induction generalizing depth ctx with
  | node e ih =>
      rcases Nat.lt_or_ge depth limit with hlimit | hlimit
      · refine evalAt_raisesOnly (own ctx e) hlimit ?_ ?_
        · rintro name rfl error herror
          obtain ⟨rfl, hnone⟩ := ctx.find_raisesOnly name error herror
          exact unbound ctx name hnone
        · intro child hchild v error herror
          exact scope ctx e error child hchild v (ih child hchild error herror)
      · rw [evalAt_of_le hlimit]
        exact raisesOnly_error.2 (exceeded ctx e)

end Related

end Expr

end ClauseEngine
