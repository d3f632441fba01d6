/-
Module: ClauseEngine.Proofs.Engine.Errors
Purpose: The errors that a call of an engine can end with. Dispatch never fails, so a call fails
  only because evaluating one body in the scope of its inputs does, or because the value of that
  body is no result. What is known of the bodies therefore carries over to every call: bodies that
  mention the inputs only never miss a variable, and bodies that were loaded never fail for a reason
  that belongs to loading.
Main exports: Engine.bodies, Engine.inputNames, Registry.cast_singleton, Engine.dispatch_eq,
  Engine.run_result, Engine.invoke_result_cases, Engine.init_result_cases, Engine.call_raisesOnly,
  Engine.eval_reads_free_variables_only, Engine.load_bodies, Engine.load_rules_out_load_errors
-/
import ClauseEngine.Engine.Basic
import ClauseEngine.Proofs.Bundle
import ClauseEngine.Proofs.Expr.Reader
import ClauseEngine.Proofs.Expr.Variables

namespace ClauseEngine

/-- A cast to one brand never fails. -/
theorem Registry.cast_singleton (registry : Registry) (target : String) (v : Value) :
    registry.cast [target] v =
      .ok (if registry.accepts [target] v then .left v else .right .unit) := by
  unfold cast
  split
  · rename_i h
    exact absurd rfl h.1
  · split <;> rfl

theorem Registry.multiBrandCast_ofEdges (edges : List (String × String)) (subtyping : Subtyping)
    (multiBrandCast : Bool) :
    (ofEdges edges subtyping multiBrandCast).multiBrandCast = multiBrandCast := by
  cases subtyping <;> rfl

namespace Engine

/-! ### Dispatch, evaluation and result

A call goes through three stages, and each has its own errors. Dispatch has none, evaluation has
those of the body, and taking the value apart has those of operands. -/

/-- The bodies that calls of an engine evaluate. -/
def bodies (e : Engine) : List Expr := e.clauses.map Clause.body ++ e.initBody.toList

/-- Among any clauses dispatch is a search for the first that accepts. -/
theorem dispatchAmong_eq (registry : Registry) (request : Value) (clauses : List Clause) :
    dispatchAmong registry request clauses =
      .ok ((clauses.find? fun clause => registry.accepts [clause.request] request).map
        (·, request)) := by
  induction clauses with
  | nil => rfl
  | cons clause rest ih =>
      rw [dispatchAmong, Registry.cast_singleton, List.find?_cons]
      cases registry.accepts [clause.request] request with
      | true => rfl
      | false => exact ih

/-- Dispatch never fails: it finds the first clause that accepts the request, if there is one, and
    hands the request on as it is. -/
theorem dispatch_eq (e : Engine) (request : Value) :
    e.dispatch request =
      .ok ((e.clauses.find? fun clause => e.registry.accepts [clause.request] request).map
        (·, request)) :=
  dispatchAmong_eq e.registry request e.clauses

/-- The result of a run is read off the value of its body. -/
theorem run_result (e : Engine) (clause : String) (body : Expr) (inv : Invocation) :
    (e.run clause body inv).result =
      Expr.eval e.registry e.maxDepth (rootContext inv) body >>= fun value =>
        (e.finish clause value inv.state inv.emit).result := by
  rw [run]
  cases Expr.eval e.registry e.maxDepth (rootContext inv) body <;> rfl

/-- A request is answered by the error of dispatch, or by running the body of a clause. -/
theorem invoke_result_cases (e : Engine) (inv : Invocation) :
    (e.invoke inv).result = .ok (.failure (.error e.errorBrand dispatchError)) ∨
      ∃ clause ∈ e.clauses,
        (e.invoke inv).result = (e.run clause.id clause.body inv).result := by
  rw [invoke, dispatch_eq]
  cases hfind : e.clauses.find? fun clause => e.registry.accepts [clause.request] inv.request with
  | none => exact .inl rfl
  | some clause => exact .inr ⟨clause, List.mem_of_find?_eq_some hfind, rfl⟩

/-- A contract is set up with the initial state, or by running the init body. -/
theorem init_result_cases (e : Engine) (contract now : Value) :
    (e.init contract now).result = .ok (.success ⟨initClause, .unit, initialState, []⟩) ∨
      ∃ body, e.initBody = some body ∧ (e.init contract now).result =
        (e.run initClause body ⟨contract, .unit, [], .unit, now⟩).result := by
  rw [init]
  cases e.initBody with
  | none => exact .inl rfl
  | some body => exact .inr ⟨body, rfl, rfl⟩

theorem succeed_operandErrors (clause : String) (payload state : Value) (emit : List Value) :
    OperandErrors (succeed clause payload state emit) := by
  simp only [succeed, raisesOnly_bind, Value.asRecord_operandErrors, true_and]
  intro fields _
  split <;> simp

/-- Taking the value of a body apart complains about that value only. -/
theorem finish_operandErrors (e : Engine) (clause : String) (result state : Value)
    (emit : List Value) : OperandErrors (e.finish clause result state emit).result := by
  unfold finish
  split
  · rename_i payload
    have hsucceed := succeed_operandErrors clause payload state emit
    split
    · exact raisesOnly_ok _
    · rename_i error herror
      exact raisesOnly_error.2 (hsucceed error herror)
  · exact raisesOnly_ok _
  · exact raisesOnly_error.2 (.mismatch _)

section Calls

variable {P : EvalError → Prop} {e : Engine}

/-- A run has the errors of evaluating its body and those of operands. -/
theorem run_raisesOnly (hoperands : ∀ error, EvalError.OfOperands error → P error) {body : Expr}
    {inv : Invocation}
    (hbody : RaisesOnly P (Expr.eval e.registry e.maxDepth (rootContext inv) body))
    (clause : String) : RaisesOnly P (e.run clause body inv).result := by
  rw [run_result, raisesOnly_bind]
  refine ⟨hbody, fun result _ => ?_⟩
  exact (e.finish_operandErrors clause result inv.state inv.emit).mono hoperands

/-- The errors of a call are those of evaluating a body in the scope of some inputs, and those of
    taking the value of the body apart. -/
theorem call_raisesOnly (hoperands : ∀ error, EvalError.OfOperands error → P error)
    (hbodies : ∀ body ∈ e.bodies, ∀ inv,
      RaisesOnly P (Expr.eval e.registry e.maxDepth (rootContext inv) body)) :
    (∀ inv, RaisesOnly P (e.invoke inv).result) ∧
      ∀ contract now, RaisesOnly P (e.init contract now).result := by
  constructor
  · intro inv
    rcases e.invoke_result_cases inv with hresult | ⟨clause, hclause, hresult⟩
    · rw [hresult]
      exact raisesOnly_ok _
    · rw [hresult]
      apply run_raisesOnly hoperands
      apply hbodies
      exact List.mem_append_left _ (List.mem_map_of_mem hclause)
  · intro contract now
    rcases e.init_result_cases contract now with hresult | ⟨body, hbody, hresult⟩
    · rw [hresult]
      exact raisesOnly_ok _
    · rw [hresult]
      apply run_raisesOnly hoperands
      apply hbodies
      exact List.mem_append_right _ (by simp [hbody])

end Calls

/-! ### Variables of a call

Evaluation looks at the free variables of a body only, and the inputs of a call are bound at the
root. -/

/-- The names under which a body finds the inputs of a call. -/
def inputNames : List String := ["contract", "state", "request", "now", "emit"]

/-- The inputs are bound at the root of every call, and nothing else is. -/
theorem mem_inputNames_iff {name : String} (inv : Invocation) :
    name ∈ inputNames ↔ ((rootContext inv).lookup name).isSome := by
  rw [← Fields.mem_names]
  rfl

theorem ofOperands_ne_unbound {error : EvalError} (h : error.OfOperands) (name : String) :
    error ≠ .unbound name := by
  rintro rfl
  cases h

/-- Evaluation depends on free variables only. In two scopes that agree on the free variables of an
    expression it has the same result; a variable that it finds unbound is a free one that the scope
    does not bind; and calls of an engine whose bodies have no free variables but the inputs never
    find a variable unbound, whatever the inputs are. -/
theorem eval_reads_free_variables_only :
    (∀ (registry : Registry) (limit : Nat) (e : Expr) (ctx ctx' : Context),
      (∀ name ∈ e.free, ctx.lookup name = ctx'.lookup name) →
        Expr.eval registry limit ctx e = Expr.eval registry limit ctx' e) ∧
    (∀ (registry : Registry) (limit : Nat) (e : Expr) (ctx : Context) (name : String),
      Expr.eval registry limit ctx e = .error (.unbound name) →
        name ∈ e.free ∧ ctx.lookup name = none) ∧
    (∀ engine : Engine,
      (∀ body ∈ engine.bodies, ∀ name ∈ body.free, name ∈ inputNames) →
        (∀ inv name, (engine.invoke inv).result ≠ .error (.unbound name)) ∧
          ∀ contract now name, (engine.init contract now).result ≠ .error (.unbound name)) := by
  refine ⟨?_, ?_, ?_⟩
  · intro registry limit e ctx ctx' hagree
    exact Expr.evalAt_eq_of_agreeOn hagree
  · intro registry limit e ctx name herror
    exact Expr.evalAt_unbound _ herror name rfl
  · intro engine hinputs
    have hbodies : ∀ body ∈ engine.bodies, ∀ inv,
        RaisesOnly (fun error => ∀ name, error ≠ .unbound name)
          (Expr.eval engine.registry engine.maxDepth (rootContext inv) body) := by
      rintro body hbody inv error herror name rfl
      obtain ⟨hfree, hnone⟩ := Expr.evalAt_unbound _ herror name rfl
      have hbound := (mem_inputNames_iff inv).1 (hinputs body hbody name hfree)
      rw [hnone] at hbound
      cases hbound
    obtain ⟨hinvoke, hinit⟩ := call_raisesOnly (fun _ => ofOperands_ne_unbound) hbodies
    constructor
    · intro inv name herror
      exact hinvoke inv _ herror name rfl
    · intro contract now name herror
      exact hinit contract now _ herror name rfl

/-- An engine whose only clause gives its request a name of its own. -/
def echoing : Engine where
  id := "echo"
  clauses := [⟨"echo", "Any", .bind "x" (.var "request") (.left (.var "x"))⟩]
  initBody := some (.left (.record [("state", .var "state")]))
  registry := ⟨[], false⟩
  errorBrand := "Error"
  maxDepth := 8

/-- Two scopes that differ in a variable which the expression binds itself, a variable that nothing
    binds, and an engine whose bodies mention the inputs only. -/
theorem eval_reads_free_variables_only_under_renaming :
    ((∀ name ∈ (Expr.bind "x" (.var "y") (.var "x")).free,
        [("y", Value.unit)].lookup name = [("x", Value.bool true), ("y", Value.unit)].lookup name) ∧
      Expr.eval ⟨[], false⟩ 2 [("y", .unit)] (.bind "x" (.var "y") (.var "x")) =
        Expr.eval ⟨[], false⟩ 2 [("x", .bool true), ("y", .unit)]
          (.bind "x" (.var "y") (.var "x"))) ∧
    (Expr.eval ⟨[], false⟩ 2 [("x", .unit)] (.left (.var "y")) = .error (.unbound "y") ∧
      "y" ∈ (Expr.left (.var "y")).free ∧ [("x", Value.unit)].lookup "y" = none) ∧
    ((∀ body ∈ echoing.bodies, ∀ name ∈ body.free, name ∈ inputNames) ∧
      (∀ inv name, (echoing.invoke inv).result ≠ .error (.unbound name)) ∧
      ∀ contract now name, (echoing.init contract now).result ≠ .error (.unbound name)) := by
  obtain ⟨hagree, hunbound, hclosed⟩ := eval_reads_free_variables_only
  have hnames : ∀ name ∈ (Expr.bind "x" (.var "y") (.var "x")).free,
      [("y", Value.unit)].lookup name =
        [("x", Value.bool true), ("y", Value.unit)].lookup name := by
    intro name hname
    obtain rfl : name = "y" := by simpa [Expr.free] using hname
    rfl
  have herror : Expr.eval ⟨[], false⟩ 2 [("x", .unit)] (.left (.var "y")) =
      .error (.unbound "y") := rfl
  have hinputs : ∀ body ∈ echoing.bodies, ∀ name ∈ body.free, name ∈ inputNames := by
    simp [echoing, bodies, Expr.free, Expr.freeFields, inputNames]
  exact ⟨⟨hnames, hagree _ _ _ _ _ hnames⟩, ⟨herror, hunbound _ _ _ _ _ herror⟩, hinputs,
    hclosed _ hinputs⟩

end Engine

/-! ### Loaded bodies

Every body of a loaded engine is read from a part of the document of its bundle. So what holds of
whatever is read from the parts of a document holds of all bodies of the engine. -/

section Loaded

variable {Good : Json → Prop} (hgood : Expr.Inherited Good) {P : Expr → Prop}
  (hread : ∀ j, Good j → Yields P (Expr.read j))

include hgood hread

/-- The bodies of a bundle are parts of its document. -/
theorem Bundle.bodies_yield {document : Json} (hdocument : Good document) {bundle : Bundle}
    (hbundle : Bundle.read document = .ok bundle) {construct : Construct}
    (hconstruct : construct ∈ bundle.constructs) {body : Json}
    (hbody : construct.reading.body = some (Expr.read body)) : Yields P (Expr.read body) := by
  obtain ⟨-, items, hitems, hreadAll⟩ := Bundle.exists_of_read hbundle
  obtain ⟨list, hlist, harray⟩ := Option.bind_eq_some_iff.1 hitems
  have hreading : construct.reading ∈ items.filterMap Construct.reading? := by
    rw [Construct.readings_of_readAll hreadAll]
    exact List.mem_map_of_mem hconstruct
  obtain ⟨item, hitem, hitemReading⟩ := List.mem_filterMap.1 hreading
  obtain ⟨kind, -, hkind⟩ := Option.map_eq_some_iff.1 hitemReading
  rw [← hkind] at hbody
  split at hbody
  · obtain ⟨part, hpart, hsame⟩ := Option.map_eq_some_iff.1 hbody
    rw [← hsame]
    refine hread part (hgood.get? ?_ hpart)
    cases list with
    | array others =>
        cases harray
        exact hgood.item (hgood.get? hdocument hlist) hitem
    | _ => cases harray
  · cases hbody

namespace Contract

omit hgood hread in
@[simp] theorem yields_inConstruct {α : Type} {Q : α → Prop} {kind id : String}
    {provenance : Option Provenance} {r : Result α} :
    Yields Q (inConstruct kind id provenance r) ↔ Yields Q r := by
  unfold inConstruct
  split <;> simp

/-- What holds of whatever is read from the parts of a document holds of the bodies of the contract.
    -/
theorem read_bodies {document : Json} (hdocument : Good document) :
    Yields (fun contract => (∀ clause ∈ contract.clauses, P clause.body) ∧
      ∀ body ∈ contract.init, P body) (read document) := by
  unfold read
  split
  · rename_i bundle hbundle
    have hbodies {construct : Construct} (hconstruct : construct ∈ bundle.constructs) {body : Json}
        (hbody : construct.reading.body = some (Expr.read body)) : Yields P (Expr.read body) :=
      Bundle.bodies_yield hgood hread hdocument hbundle hconstruct hbody
    refine Yields.bind (yields_mapM (Q := fun clause => P clause.body) ?_) ?_
    · intro declaration hdeclaration
      obtain ⟨construct, hconstruct, hclause⟩ := List.mem_filterMap.1 hdeclaration
      cases construct with
      | clause found =>
          cases hclause
          refine (yields_inConstruct.2 (hbodies hconstruct rfl)).bind fun body hbody => ?_
          exact yields_pure.2 hbody
      | _ => cases hclause
    intro clauses hclauses
    refine Yields.bind (yields_optionMapM (Q := P) ?_) ?_
    · intro declaration hdeclaration
      obtain ⟨construct, hconstruct, hinit⟩ :=
        List.mem_filterMap.1 (List.mem_of_getLast? hdeclaration)
      cases construct with
      | init found =>
          cases hinit
          exact yields_inConstruct.2 (hbodies hconstruct rfl)
      | _ => cases hinit
    intro init hinit
    exact yields_pure.2 ⟨hclauses, hinit⟩
  · exact yields_error _

end Contract

/-- All bodies of a loaded engine have a property that reading a part of the document gives, and the
    casts of the engine are as the settings say. -/
theorem Engine.load_bodies {document : Json} (hdocument : Good document) (config : Config) :
    Yields (fun engine => (∀ body ∈ engine.bodies, P body) ∧
      engine.registry.multiBrandCast = config.multiBrandCast) (load document config) := by
  refine Yields.after fun _ => (Contract.read_bodies hgood hread hdocument).bind ?_
  rintro contract ⟨hclauses, hinit⟩
  refine Yields.after fun _ => ?_
  dsimp only
  split
  · exact yields_error _
  · refine yields_pure.2 ⟨?_, Registry.multiBrandCast_ofEdges _ _ _⟩
    intro body hbody
    rcases List.mem_append.1 hbody with hbody | hbody
    · obtain ⟨clause, hclause, rfl⟩ := List.mem_map.1 hbody
      exact hclauses clause hclause
    · exact hinit body (Option.mem_toList.1 hbody)

end Loaded

namespace Engine

/-- All bodies of a loaded engine are saturated, and its casts are as the settings say. -/
theorem load_saturated (document : Json) (config : Config) :
    Yields (fun engine => (∀ body ∈ engine.bodies, body.Saturated) ∧
      engine.registry.multiBrandCast = config.multiBrandCast) (load document config) := by
  have hgood : Expr.Inherited fun _ => True := ⟨fun _ _ => trivial, fun _ _ => trivial⟩
  exact load_bodies hgood (fun j _ => Expr.read_saturated j) trivial config

/-- Logic that loads cannot fail for reasons of loading later. In an expression that has been read
    every operator has as many arguments as it takes, so that a connective finds its two operands
    and the meaning of an operator all of its own, and evaluating it never ends with an error that
    belongs to loading; nor does any call of a loaded engine. -/
theorem load_rules_out_load_errors :
    (∀ (j : Json) (e : Expr), Expr.read j = .ok e →
      (∀ operator args, Expr.Within (.apply operator args) e →
        args.length = operator.arity ∧
        (∀ decisive, operator.decidedBy? = some decisive →
          ∃ first second, args = [first, second]) ∧
        ∀ registry limit depth ctx values,
          Expr.evalItems registry limit depth ctx args = .ok values →
            ∃ result, operator.operation.run? values = some result) ∧
      ∀ (registry : Registry) (limit : Nat) (ctx : Context) (error : EvalError),
        Expr.eval registry limit ctx e = .error error →
          error.AfterLoading registry.multiBrandCast) ∧
    (∀ (document : Json) (config : Config) (engine : Engine), load document config = .ok engine →
      (∀ body ∈ engine.bodies, body.Saturated) ∧
      (∀ inv error, (engine.invoke inv).result = .error error →
        error.AfterLoading config.multiBrandCast) ∧
      ∀ contract now error, (engine.init contract now).result = .error error →
        error.AfterLoading config.multiBrandCast) := by
  constructor
  · intro j e hread
    have hsaturated := Expr.read_saturated j e hread
    constructor
    · intro operator args hwithin
      have hargs := hsaturated operator args hwithin
      refine ⟨hargs, fun decisive => Expr.exists_operands_of_decidedBy hargs, ?_⟩
      intro registry limit depth ctx values
      exact Expr.run?_eq_some_of_evalItems hargs
    · intro registry limit ctx
      exact Expr.evalAt_raisesOnly_of_saturated hsaturated
  · intro document config engine hload
    obtain ⟨hbodies, hmulti⟩ := load_saturated document config engine hload
    have hcalls : (∀ inv, RaisesOnly (EvalError.AfterLoading config.multiBrandCast)
          (engine.invoke inv).result) ∧ ∀ contract now,
        RaisesOnly (EvalError.AfterLoading config.multiBrandCast)
          (engine.init contract now).result := by
      refine call_raisesOnly (fun _ => .of_ofOperands) ?_
      intro body hbody inv
      rw [← hmulti]
      exact Expr.evalAt_raisesOnly_of_saturated (hbodies body hbody)
    exact ⟨hbodies, hcalls⟩

/-- The node of a conjunction. -/
def conjunctionNode : Json :=
  .object [
    ("args", .array [.object [("expr", .string "var"), ("name", .string "request")],
      .object [("expr", .string "var"), ("name", .string "state")]]),
    ("expr", .string "apply"), ("op", .string "and")]

/-- A bundle with a subtype edge and a clause that denies its request. -/
def denialDocument : Json :=
  .object [
    ("constructs", .array [
      .object [("kind", .string "Subtype"), ("sub", .string "A"), ("sup", .string "B")],
      .object [
        ("body", .object [
          ("args", .array [.object [("expr", .string "var"), ("name", .string "request")]]),
          ("expr", .string "apply"), ("op", .string "not")]),
        ("id", .string "deny"), ("kind", .string "Clause"), ("request", .string "Any")]]),
    ("id", .string "denial")]

/-- The engine of that bundle. -/
def denial : Engine where
  id := "denial"
  clauses := [⟨"deny", "Any", .apply .not [.var "request"]⟩]
  initBody := none
  registry := ⟨[("A", ["B"])], true⟩
  errorBrand := "Error"
  maxDepth := 8

/-- A connective as it is read, and an engine as it is loaded. -/
theorem load_rules_out_load_errors_of_connective :
    (Expr.read conjunctionNode = .ok (.apply .and [.var "request", .var "state"]) ∧
      ∀ registry limit ctx error,
        Expr.eval registry limit ctx (.apply .and [.var "request", .var "state"]) = .error error →
          error.AfterLoading registry.multiBrandCast) ∧
    (load denialDocument ⟨.transitive, true, 8, "Error"⟩ = .ok denial ∧
      ∀ inv error, (denial.invoke inv).result = .error error → error.AfterLoading true) := by
  obtain ⟨hread, hload⟩ := load_rules_out_load_errors
  have hnode : Expr.read conjunctionNode = .ok (.apply .and [.var "request", .var "state"]) := by
    with_unfolding_all rfl
  have hdenial : load denialDocument ⟨.transitive, true, 8, "Error"⟩ = .ok denial := by
    with_unfolding_all rfl
  exact ⟨⟨hnode, (hread _ _ hnode).2⟩, hdenial, (hload _ _ _ hdenial).2.1⟩

end Engine

end ClauseEngine
