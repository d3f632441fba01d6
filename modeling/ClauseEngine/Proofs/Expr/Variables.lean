/-
Module: ClauseEngine.Proofs.Expr.Variables
Purpose: Lexical scope. Evaluation reads the free variables of an expression and no others, so that
  scopes which agree on them are as good as one another. A binding is therefore the same as putting
  its value in place of the free occurrences of its variable, and the only variables that can be
  found unbound are free ones. Both arguments go node by node: `Scopes` says which variable a node
  binds in which sub-expression.
Main exports: Expr.free, Expr.mem_free_iff, Context.AgreeOn, Expr.evalAt_eq_of_agreeOn, Expr.subst,
  Expr.evalAt_bind, Expr.eval_bind_eq_eval_subst, Expr.evalAt_unbound
-/
import ClauseEngine.Proofs.Expr.Scopes
import ClauseEngine.Proofs.Fields

namespace ClauseEngine

/-! ### Free variables

A variable is free in a node if it is free in a sub-expression under which the node does not bind
it, or if the node is that variable. -/

namespace Expr

mutual

/-- The free variables of an expression, with repetitions. -/
def free : Expr → List String
  | .const _ => []
  | .var name => [name]
  | .bind name value body => value.free ++ body.free.filter (name ≠ ·)
  | .dot target _ => target.free
  | .record fields => freeFields fields
  | .concat first second => first.free ++ second.free
  | .brand _ value => value.free
  | .unbrand value => value.free
  | .cast _ value => value.free
  | .left value => value.free
  | .right value => value.free
  | .either scrutinee leftVar onLeft rightVar onRight =>
      scrutinee.free ++ onLeft.free.filter (leftVar ≠ ·) ++ onRight.free.filter (rightVar ≠ ·)
  | .cond test yes no => test.free ++ yes.free ++ no.free
  | .apply _ args => freeItems args
  | .seq items => freeItems items
  | .map name source body => source.free ++ body.free.filter (name ≠ ·)
  | .filter name source body => source.free ++ body.free.filter (name ≠ ·)
  | .choose scrutinee cases otherwise => scrutinee.free ++ otherwise.free ++ freeCases cases

/-- The free variables of a list of expressions. -/
def freeItems : List Expr → List String
  | [] => []
  | item :: rest => item.free ++ freeItems rest

/-- The free variables of a list of named expressions. -/
def freeFields : List (String × Expr) → List String
  | [] => []
  | (_, value) :: rest => value.free ++ freeFields rest

/-- The free variables of a list of cases, each of which binds its own variable in its body. -/
def freeCases : List (Case Expr) → List String
  | [] => []
  | ⟨_, name, body⟩ :: rest => body.free.filter (name ≠ ·) ++ freeCases rest

end

theorem mem_freeItems {name : String} {items : List Expr} :
    name ∈ freeItems items ↔ ∃ item ∈ items, name ∈ item.free := by
  induction items with
  | nil => simp [freeItems]
  | cons item rest ih => simp [freeItems, ih]

theorem mem_freeFields {name : String} {fields : List (String × Expr)} :
    name ∈ freeFields fields ↔ ∃ field ∈ fields, name ∈ field.2.free := by
  induction fields with
  | nil => simp [freeFields]
  | cons field rest ih => simp [freeFields, ih]

/-- In a case, the variable that the case binds is not free. -/
theorem mem_freeCases {name : String} {cases : List (Case Expr)} :
    name ∈ freeCases cases ↔ ∃ case ∈ cases, name ∈ case.body.free ∧ case.var ≠ name := by
  induction cases with
  | nil => simp [freeCases]
  | cons case rest ih => simp [freeCases, ih]

/-- A variable is free in a node if it is the node, or if it is free in a sub-expression in which
    the node does not bind it. -/
theorem mem_free_iff {name : String} {e : Expr} :
    name ∈ e.free ↔
      e = .var name ∨ ∃ scope ∈ e.scopes, name ∈ scope.2.free ∧ scope.1 ≠ some name := by
  cases e with
  | var other => simp [free, scopes, eq_comm]
  | record fields =>
      simp only [free, mem_freeFields, scopes, List.mem_map]
      simp
  | _ => simp [free, scopes, mem_freeItems, mem_freeCases]

end Expr

/-! ### Looking names up in a scope

Scopes are compared by what they find under certain names. Such a comparison sees neither a binding
that is hidden by an inner one nor the order of bindings of different names. -/

namespace Context

/-- A binding is found under its name and hides what was there. -/
theorem lookup_bind {ctx : Context} {x name : String} {v : Value} :
    (ctx.bind x v).lookup name = if name = x then some v else ctx.lookup name :=
  Fields.lookup_cons

theorem find_eq_of_lookup_eq {ctx ctx' : Context} {name : String}
    (h : ctx.lookup name = ctx'.lookup name) : ctx.find name = ctx'.find name := by
  rw [find, find, h]

/-- A name is unbound under a binder exactly if the binder does not bind it and the scope around it
    does not either. -/
theorem lookup_under_eq_none_iff {ctx : Context} {bound : Option String} {name : String}
    {v : Value} :
    (ctx.under bound v).lookup name = none ↔ bound ≠ some name ∧ ctx.lookup name = none := by
  cases bound with
  | none => simp [under]
  | some x =>
      rw [under, lookup_bind]
      by_cases hname : name = x
      · simp [hname]
      · simp [hname, Ne.symm hname]

/-- Two scopes agree on some names: each is bound to the same value in both, or in neither. -/
def AgreeOn (names : List String) (ctx ctx' : Context) : Prop :=
  ∀ name ∈ names, ctx.lookup name = ctx'.lookup name

/-- Scopes that agree on the free variables of a node agree, with its variable bound in both, on
    those of a sub-expression. -/
theorem AgreeOn.under {e : Expr} {ctx ctx' : Context} (h : AgreeOn e.free ctx ctx')
    {scope : Option String × Expr} (hscope : scope ∈ e.scopes) (v : Value) :
    AgreeOn scope.2.free (ctx.under scope.1 v) (ctx'.under scope.1 v) := by
  obtain ⟨bound, child⟩ := scope
  intro name hname
  have houter (hne : bound ≠ some name) : ctx.lookup name = ctx'.lookup name :=
    h name (Expr.mem_free_iff.2 (.inr ⟨_, hscope, hname, hne⟩))
  cases bound with
  | none => exact houter nofun
  | some x =>
      rw [Context.under, Context.under, lookup_bind, lookup_bind]
      split
      · rfl
      · rename_i hne
        apply houter
        simpa using Ne.symm hne

/-- The inner one of two bindings of a name hides the outer one. -/
theorem agreeOn_bind_shadow (names : List String) (ctx : Context) (x : String) (v w : Value) :
    AgreeOn names ((ctx.bind x v).bind x w) (ctx.bind x w) := by
  intro name _
  simp only [lookup_bind]
  split <;> rfl

/-- Bindings of two names can change places. -/
theorem agreeOn_bind_comm (names : List String) (ctx : Context) {x y : String} (h : y ≠ x)
    (v w : Value) :
    AgreeOn names ((ctx.bind x v).bind y w) ((ctx.bind y w).bind x v) := by
  intro name _
  simp only [lookup_bind]
  by_cases hx : name = x
  · have hy : name ≠ y := hx ▸ h.symm
    simp only [if_pos hx, if_neg hy]
  · simp only [if_neg hx]

end Context

/-! ### Evaluation reads free variables only

Scopes that agree on the free variables of a node agree on those of its sub-expressions, also under
the binding of the node. The rest of the argument is that for relations which sequencing keeps. -/

/-- Equality of results is a relation that sequencing keeps. -/
theorem stepRelation_eq (own : EvalError → Prop) : StepRelation own fun _ r r' => r = r' where
  same _ := rfl
  bind {α β x y f g} hx hf := by
    subst hx
    cases x with
    | error error => rfl
    | ok a => exact hf a rfl

namespace Expr

variable {registry : Registry} {limit depth : Nat} {ctx ctx' : Context} {e : Expr}

/-- Scopes that agree on the free variables of an expression give it the same result. -/
theorem evalAt_eq_of_agreeOn (h : ctx.AgreeOn e.free ctx') :
    evalAt registry limit depth ctx e = evalAt registry limit depth ctx' e := by
  induction e using scopes_induction generalizing depth ctx ctx' with
  | node e ih =>
      rcases Nat.lt_or_ge depth limit with hlimit | hlimit
      · apply evalAt_related (stepRelation_eq _) hlimit hlimit
        · rintro name rfl
          apply Context.find_eq_of_lookup_eq
          exact h name (mem_free_iff.2 (.inl rfl))
        · intro scope hscope v
          apply ih scope hscope
          exact h.under hscope v
      · rw [evalAt_of_le hlimit, evalAt_of_le hlimit]

/-- A variable that an evaluation finds unbound is free in the expression and unbound around it. -/
theorem evalAt_unbound :
    RaisesOnly (fun error => ∀ name, error = .unbound name →
      name ∈ e.free ∧ ctx.lookup name = none) (evalAt registry limit depth ctx e) := by
  refine evalAt_errors_induction (P := fun ctx e error => ∀ name, error = .unbound name →
    name ∈ e.free ∧ ctx.lookup name = none) ?exceeded ?own ?unbound ?scope e
  case exceeded => rintro _ _ _ ⟨⟩
  case own =>
    rintro ctx e error hown name rfl
    rcases hown with ⟨⟨⟩⟩
  case unbound =>
    rintro ctx _ hnone name ⟨⟩
    exact ⟨mem_free_iff.2 (.inl rfl), hnone⟩
  case scope =>
    intro ctx e error scope hscope v hchild name herror
    obtain ⟨hfree, hnone⟩ := hchild name herror
    obtain ⟨hbound, hnone⟩ := Context.lookup_under_eq_none_iff.1 hnone
    exact ⟨mem_free_iff.2 (.inr ⟨scope, hscope, hfree, hbound⟩), hnone⟩

/-! ### Substitution

Putting a constant in the place of a variable goes through all sub-expressions except those under
which the variable is bound again. Evaluation does the same when it looks the variable up. -/

mutual

/-- The expression with a value in place of the free occurrences of a variable. A sub-expression in
    which its node binds that variable stays as it is. -/
def subst (x : String) (v : Value) : Expr → Expr
  | .const value => .const value
  | .var name => if name = x then .const v else .var name
  | .bind name value body =>
      .bind name (value.subst x v) (if name = x then body else body.subst x v)
  | .dot target field => .dot (target.subst x v) field
  | .record fields => .record (substFields x v fields)
  | .concat first second => .concat (first.subst x v) (second.subst x v)
  | .brand name value => .brand name (value.subst x v)
  | .unbrand value => .unbrand (value.subst x v)
  | .cast brands value => .cast brands (value.subst x v)
  | .left value => .left (value.subst x v)
  | .right value => .right (value.subst x v)
  | .either scrutinee leftVar onLeft rightVar onRight =>
      .either (scrutinee.subst x v)
        leftVar (if leftVar = x then onLeft else onLeft.subst x v)
        rightVar (if rightVar = x then onRight else onRight.subst x v)
  | .cond test yes no => .cond (test.subst x v) (yes.subst x v) (no.subst x v)
  | .apply operator args => .apply operator (substItems x v args)
  | .seq items => .seq (substItems x v items)
  | .map name source body =>
      .map name (source.subst x v) (if name = x then body else body.subst x v)
  | .filter name source body =>
      .filter name (source.subst x v) (if name = x then body else body.subst x v)
  | .choose scrutinee cases otherwise =>
      .choose (scrutinee.subst x v) (substCases x v cases) (otherwise.subst x v)

/-- Substitution in a list of expressions. -/
def substItems (x : String) (v : Value) : List Expr → List Expr
  | [] => []
  | item :: rest => item.subst x v :: substItems x v rest

/-- Substitution in a list of named expressions. -/
def substFields (x : String) (v : Value) : List (String × Expr) → List (String × Expr)
  | [] => []
  | (name, value) :: rest => (name, value.subst x v) :: substFields x v rest

/-- Substitution in a list of cases. The body of a case of that variable stays as it is. -/
def substCases (x : String) (v : Value) : List (Case Expr) → List (Case Expr)
  | [] => []
  | ⟨brands, name, body⟩ :: rest =>
      ⟨brands, name, if name = x then body else body.subst x v⟩ :: substCases x v rest

end

/-- Substitution in a sub-expression, given the variable that its node binds in it. -/
def substUnder (x : String) (v : Value) (bound : Option String) (child : Expr) : Expr :=
  if bound = some x then child else child.subst x v

variable {x : String} {v : Value}

theorem substItems_eq_map (items : List Expr) :
    substItems x v items = items.map (substUnder x v none) := by
  induction items with
  | nil => rfl
  | cons item rest ih => simp [substItems, substUnder, ih]

theorem substFields_eq_map (fields : List (String × Expr)) :
    substFields x v fields = fields.map fun field => (field.1, substUnder x v none field.2) := by
  induction fields with
  | nil => rfl
  | cons field rest ih => simp [substFields, substUnder, ih]

theorem substCases_eq_map (cases : List (Case Expr)) :
    substCases x v cases = cases.map fun case =>
      ⟨case.brands, case.var, substUnder x v (some case.var) case.body⟩ := by
  induction cases with
  | nil => rfl
  | cons case rest ih => simp [substCases, substUnder, ih]

/-- Substitution in a node that is no variable is substitution in its sub-expressions. -/
theorem subst_eq_mapScopes (h : ∀ name, e ≠ .var name) :
    e.subst x v = e.mapScopes (substUnder x v) := by
  cases e with
  | var name => exact absurd rfl (h name)
  | record fields => rw [subst, mapScopes, substFields_eq_map]
  | apply operator args => rw [subst, mapScopes, substItems_eq_map]
  | seq items => rw [subst, mapScopes, substItems_eq_map]
  | choose scrutinee cases otherwise =>
      rw [subst, mapScopes, substCases_eq_map]
      rfl
  | _ => simp [subst, mapScopes, substUnder]

/-- Under a binder of the variable its binding is hidden, and nothing is substituted; under any
    other binder the two bindings change places. -/
theorem evalAt_bind_under {child : Expr}
    (ih : ∀ ctx : Context, evalAt registry limit depth (ctx.bind x v) child =
      evalAt registry limit depth ctx (child.subst x v)) (bound : Option String) (w : Value) :
    evalAt registry limit depth ((ctx.bind x v).under bound w) child =
      evalAt registry limit depth (ctx.under bound w) (substUnder x v bound child) := by
  cases bound with
  | none => exact ih ctx
  | some y =>
      by_cases hy : y = x
      · subst hy
        simp only [substUnder, if_true]
        exact evalAt_eq_of_agreeOn (Context.agreeOn_bind_shadow _ ctx y v w)
      · have hbound : ¬ (some y = some x) := by simpa using hy
        simp only [substUnder, if_neg hbound]
        calc evalAt registry limit depth ((ctx.bind x v).bind y w) child
            = evalAt registry limit depth ((ctx.bind y w).bind x v) child :=
              evalAt_eq_of_agreeOn (Context.agreeOn_bind_comm _ ctx hy v w)
          _ = evalAt registry limit depth (ctx.bind y w) (child.subst x v) := ih (ctx.bind y w)

/-- A binding is the same as its value in the place of its variable. -/
theorem evalAt_bind : evalAt registry limit depth (ctx.bind x v) e =
    evalAt registry limit depth ctx (e.subst x v) := by
  induction e using scopes_induction generalizing depth ctx with
  | node e ih =>
      rcases Nat.lt_or_ge depth limit with hlimit | hlimit
      · by_cases hvar : ∃ name, e = .var name
        · obtain ⟨name, rfl⟩ := hvar
          rw [subst]
          split
          · rename_i hname
            simp [evalAt, Nat.not_le.2 hlimit, Context.find, Context.lookup_bind, hname]
          · rename_i hname
            simp [evalAt, Nat.not_le.2 hlimit, Context.find, Context.lookup_bind, hname]
        · have hnode : ∀ name, e ≠ .var name := fun name he => hvar ⟨name, he⟩
          rw [subst_eq_mapScopes hnode]
          apply evalAt_mapScopes_related (stepRelation_eq _) hlimit hlimit
          · intro name he
            exact absurd he (hnode name)
          · intro scope hscope w
            exact evalAt_bind_under (fun ctx => ih scope hscope) scope.1 w
      · rw [evalAt_of_le hlimit, evalAt_of_le hlimit]

/-- A binding is the same as a substitution: evaluating an expression with a variable bound to a
    value gives what evaluating it without the binding gives once the value stands in place of the
    free occurrences of the variable, under every limit and with the same errors. -/
theorem eval_bind_eq_eval_subst (registry : Registry) (limit : Nat) (ctx : Context) (x : String)
    (v : Value) (e : Expr) :
    eval registry limit (ctx.bind x v) e = eval registry limit ctx (e.subst x v) :=
  evalAt_bind

end Expr

end ClauseEngine
