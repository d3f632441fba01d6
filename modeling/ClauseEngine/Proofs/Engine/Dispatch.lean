/-
Module: ClauseEngine.Proofs.Engine.Dispatch
Purpose: Which clause answers a request, and what has a say in it. The first clause that accepts the
  request answers it: the bodies of the others, and all that stands after it, are of no consequence.
  Dispatch is therefore the same as a choice by brand, so that an engine can be folded into a single
  clause that chooses, one level further up, without changing an answer.
Main exports: Engine.Accepts, Engine.FirstAccepting, Engine.invoke_of_refused,
  Engine.invoke_of_firstAccepting, Engine.invoke_first_accepting, Engine.choice, Engine.ChoosesFor,
  Engine.SameAnswer, Engine.invoke_choice
-/
import ClauseEngine.Proofs.Engine.Errors
import ClauseEngine.Proofs.Engine.Loading
import ClauseEngine.Proofs.Engine.Outcome
import ClauseEngine.Proofs.Expr.Depth

namespace ClauseEngine

namespace Engine

variable {e : Engine} {inv : Invocation} {request : Value} {clause : Clause}

/-! ### The first clause that accepts

Dispatch asks the clauses in their order by a cast to their brand, which for a single brand never
fails. So it is a search for the first clause that accepts, and a list of clauses enters into it up
to that clause only. -/

/-- A clause accepts a request if its brand is the universal one, that of the request, or one above
    it. A request without a brand is accepted by the universal brand only. -/
def Accepts (e : Engine) (request : Value) (clause : Clause) : Prop :=
  clause.request = Registry.anyBrand ∨
    ∃ brand, request.brand? = some brand ∧
      (clause.request = brand ∨ e.registry.isSubBrand brand clause.request = true)

/-- The registry accepts a request for a clause exactly if the clause accepts it by its brand. -/
theorem accepts_iff :
    e.registry.accepts [clause.request] request = true ↔ e.Accepts request clause := by
  unfold Registry.accepts Accepts
  cases request.brand? with
  | none => simp
  | some brand => simp [Registry.brandMatches, Registry.brandSatisfies, or_assoc]

instance : Decidable (e.Accepts request clause) := decidable_of_iff _ accepts_iff

/-- The clauses of an engine, split at the first one that accepts a request. -/
structure FirstAccepting (e : Engine) (request : Value) (before : List Clause) (clause : Clause)
    (after : List Clause) : Prop where
  clauses : e.clauses = before ++ clause :: after
  refused : ∀ earlier ∈ before, ¬ e.Accepts request earlier
  accepted : e.Accepts request clause

/-- Whether a clause accepts a request is settled by its brand. -/
theorem refused_of_subset {clauses clauses' : List Clause}
    (h : ∀ clause ∈ clauses, ¬ e.Accepts request clause)
    (hsubset : clauses'.map Clause.request ⊆ clauses.map Clause.request) :
    ∀ clause ∈ clauses', ¬ e.Accepts request clause := by
  intro clause hclause haccepts
  obtain ⟨other, hother, hrequest⟩ := List.mem_map.1 (hsubset (List.mem_map_of_mem hclause))
  apply h other hother
  unfold Accepts at haccepts ⊢
  rw [hrequest]
  exact haccepts

/-- If no clause accepts the request, dispatch finds none. -/
theorem dispatch_of_refused (h : ∀ clause ∈ e.clauses, ¬ e.Accepts request clause) :
    e.dispatch request = .ok none := by
  rw [dispatch_eq, List.find?_eq_none.2]
  · rfl
  · intro clause hclause
    rw [accepts_iff]
    exact h clause hclause

/-- Dispatch finds the first clause that accepts, and hands the request on as it is. -/
theorem dispatch_of_firstAccepting {before after : List Clause}
    (h : e.FirstAccepting request before clause after) :
    e.dispatch request = .ok (some (clause, request)) := by
  have hfind : e.clauses.find? (fun clause => e.registry.accepts [clause.request] request) =
      some clause := by
    have hearlier : ∀ earlier ∈ before, !e.registry.accepts [earlier.request] request := by
      intro earlier hearlier
      have hrefused := h.refused earlier hearlier
      rw [← accepts_iff] at hrefused
      simpa using hrefused
    apply List.find?_eq_some_iff_append.2
    exact ⟨accepts_iff.2 h.accepted, before, after, h.clauses, hearlier⟩
  rw [dispatch_eq, hfind]
  rfl

/-- A request that no clause accepts fails without a body being looked at. -/
theorem invoke_of_refused (h : ∀ clause ∈ e.clauses, ¬ e.Accepts inv.request clause) :
    e.invoke inv = ⟨[e.moved .initial .dispatching, e.moved .dispatching .failed],
      .ok (.failure (.error e.errorBrand dispatchError))⟩ := by
  rw [invoke, dispatch_of_refused h]
  rfl

/-- The first clause that accepts a request is run on it. -/
theorem invoke_of_firstAccepting {before after : List Clause}
    (h : e.FirstAccepting inv.request before clause after) :
    e.invoke inv = .after [e.moved .initial .dispatching,
      .moved e.id .dispatching .evaluating (some clause.id)] (e.run clause.id clause.body inv) := by
  rw [invoke, dispatch_of_firstAccepting h]
  rfl

/-- The result of a call is made of the value of the first clause that accepts. -/
theorem invoke_result_of_firstAccepting {before after : List Clause}
    (h : e.FirstAccepting inv.request before clause after) :
    (e.invoke inv).result =
      Expr.eval e.registry e.maxDepth (rootContext inv) clause.body >>= fun value =>
        (e.finish clause.id value inv.state inv.emit).result := by
  rw [invoke_of_firstAccepting h, ← run_result]
  rfl

/-- The first clause that accepts a request answers it, and nothing else matters. Dispatch itself
    never fails. If no clause accepts the request, the call fails with the error of dispatch,
    whatever the bodies are and however small the limit is, so that none is evaluated. Else the body
    of the first clause that does is evaluated with the request as it is, and its value, or the error
    that it ends with, makes the result; and every list of clauses that has this clause after clauses
    of brands that stood before it gives the same, be the bodies before it others, their order
    another, or the clauses after it any at all. -/
theorem invoke_first_accepting (e : Engine) (inv : Invocation) :
    (∀ request, ∃ answer, e.dispatch request = .ok answer) ∧
    ((∀ clause ∈ e.clauses, ¬ e.Accepts inv.request clause) →
      e.invoke inv = ⟨[e.moved .initial .dispatching, e.moved .dispatching .failed],
        .ok (.failure (.error e.errorBrand dispatchError))⟩ ∧
      ∀ clauses limit, clauses.map Clause.request ⊆ e.clauses.map Clause.request →
        { e with clauses := clauses, maxDepth := limit }.invoke inv = e.invoke inv) ∧
    ∀ before clause after, e.FirstAccepting inv.request before clause after →
      e.dispatch inv.request = .ok (some (clause, inv.request)) ∧
      (e.invoke inv).result =
        (Expr.eval e.registry e.maxDepth (rootContext inv) clause.body >>= fun value =>
          (e.finish clause.id value inv.state inv.emit).result) ∧
      ∀ before' after', before'.map Clause.request ⊆ before.map Clause.request →
        { e with clauses := before' ++ clause :: after' }.invoke inv = e.invoke inv := by
  constructor
  · intro request
    exact ⟨_, dispatch_eq e request⟩
  constructor
  · intro hrefused
    constructor
    · exact invoke_of_refused hrefused
    · intro clauses limit hsubset
      rw [invoke_of_refused hrefused]
      apply invoke_of_refused
      exact refused_of_subset hrefused hsubset
  · intro before clause after hfirst
    constructor
    · exact dispatch_of_firstAccepting hfirst
    constructor
    · exact invoke_result_of_firstAccepting hfirst
    · intro before' after' hsubset
      rw [invoke_of_firstAccepting hfirst]
      have hfirst' : { e with clauses := before' ++ clause :: after' }.FirstAccepting inv.request
          before' clause after' :=
        ⟨rfl, refused_of_subset hfirst.refused hsubset, hfirst.accepted⟩
      exact invoke_of_firstAccepting hfirst'

/-- An engine with a clause for golden orders and one for orders, where late orders are orders. -/
def orderDesk : Engine where
  id := "desk"
  clauses := [⟨"gold", "GoldenOrder", .right (.var "state")⟩,
    ⟨"order", "Order", .left (.record [("response", .var "request")])⟩]
  initBody := none
  registry := ⟨[("LateOrder", ["Order"])], false⟩
  errorBrand := "Error"
  maxDepth := 8

/-- A late order goes past the clause for golden ones and is sent back by the next, and a request
    without a brand goes past both. -/
theorem invoke_first_accepting_of_late_order :
    (orderDesk.FirstAccepting (.branded "LateOrder" [])
        [⟨"gold", "GoldenOrder", .right (.var "state")⟩]
        ⟨"order", "Order", .left (.record [("response", .var "request")])⟩ [] ∧
      (orderDesk.invoke ⟨.unit, .unit, [], .branded "LateOrder" [], .unit⟩).result =
        .ok (.success ⟨"order", .branded "LateOrder" [], .unit, []⟩)) ∧
    ((∀ clause ∈ orderDesk.clauses, ¬ orderDesk.Accepts .unit clause) ∧
      (orderDesk.invoke ⟨.unit, .unit, [], .unit, .unit⟩).result =
        .ok (.failure (.error "Error" dispatchError))) := by
  have hfirst : orderDesk.FirstAccepting (.branded "LateOrder" [])
      [⟨"gold", "GoldenOrder", .right (.var "state")⟩]
      ⟨"order", "Order", .left (.record [("response", .var "request")])⟩ [] :=
    ⟨rfl, by decide, by decide⟩
  have hrefused : ∀ clause ∈ orderDesk.clauses, ¬ orderDesk.Accepts .unit clause := by decide
  refine ⟨⟨hfirst, ?_⟩, hrefused, ?_⟩
  · rw [((invoke_first_accepting orderDesk ⟨.unit, .unit, [], .branded "LateOrder" [], .unit⟩).2.2
      _ _ _ hfirst).2.1]
    with_unfolding_all rfl
  · rw [((invoke_first_accepting orderDesk ⟨.unit, .unit, [], .unit, .unit⟩).2.1 hrefused).1]
    rfl

/-! ### Dispatch as a choice

A match tries its cases in order by the same casts. The clauses of an engine, turned into cases, are
therefore chosen as dispatch chooses; what is left to compare is one level of depth and the name of
the clause. -/

/-- The clauses of an engine as one expression: a choice by the brand of the request, which ends
    with the error of dispatch. -/
def choice (e : Engine) : Expr :=
  .choose (.var "request")
    (e.clauses.map fun clause => ⟨[clause.request], "request", clause.body⟩)
    (.const (.right (.branded e.errorBrand [("message", .str dispatchError)])))

/-- An engine that takes every request and leaves it to the choice of another engine, with one level
    more to evaluate it. -/
structure ChoosesFor (e' e : Engine) (name : String) : Prop where
  registry : e'.registry = e.registry
  errorBrand : e'.errorBrand = e.errorBrand
  maxDepth : e'.maxDepth = e.maxDepth + 1
  clauses : e'.clauses = [⟨name, Registry.anyBrand, e.choice⟩]

/-- Two answers that differ at most in the name of the clause that gave them and in the limit that
    was hit. -/
inductive SameAnswer (limit limit' : Nat) : Result Outcome → Result Outcome → Prop
  | success (clause clause' : String) (response state : Value) (emit : List Value) :
      SameAnswer limit limit' (.ok (.success ⟨clause, response, state, emit⟩))
        (.ok (.success ⟨clause', response, state, emit⟩))
  | failure (reason : Failure) :
      SameAnswer limit limit' (.ok (.failure reason)) (.ok (.failure reason))
  | noResult (clause clause' : String) (kind : Kind) :
      SameAnswer limit limit' (.error (.mismatch (.clauseResult clause kind)))
        (.error (.mismatch (.clauseResult clause' kind)))
  | exceeded : SameAnswer limit limit' (.error (.depthExceeded limit))
      (.error (.depthExceeded limit'))
  | error (error : EvalError) (h : error.isDepthExceeded = false) :
      SameAnswer limit limit' (.error error) (.error error)

/-- Among the cases that clauses turn into, the first one that the request can be cast to is that of
    the clause dispatch finds. -/
theorem evalCases_clauses (registry : Registry) (limit depth : Nat) (ctx : Context)
    (request : Value) (clauses : List Clause) :
    Expr.evalCases registry limit depth ctx request
        (clauses.map fun clause => ⟨[clause.request], "request", clause.body⟩) =
      (clauses.find? fun clause => registry.accepts [clause.request] request).elim (.ok none)
        fun clause => some <$>
          Expr.evalAt registry limit depth (ctx.bind "request" request) clause.body := by
  induction clauses with
  | nil => rfl
  | cons clause rest ih =>
      rw [List.map_cons, Expr.evalCases, Registry.cast_singleton, List.find?_cons]
      cases registry.accepts [clause.request] request with
      | true => rfl
      | false => exact ih

/-- Binding the request once more changes nothing. -/
theorem agreeOn_bind_request (names : List String) (inv : Invocation) :
    Context.AgreeOn names ((rootContext inv).bind "request" inv.request) (rootContext inv) := by
  intro name _
  rw [Context.lookup_bind]
  split
  · rename_i hname
    rw [hname]
    rfl
  · rfl

/-- With two levels or more, a choice comes to the value of the body that dispatch finds, one level
    down, or to the error of dispatch. -/
theorem eval_choice {limit : Nat} (hlimit : 1 < limit) :
    Expr.eval e.registry limit (rootContext inv) e.choice =
      (e.clauses.find? fun clause => e.registry.accepts [clause.request] inv.request).elim
        (.ok (.right (.branded e.errorBrand [("message", .str dispatchError)])))
        fun clause => Expr.evalAt e.registry limit 1 (rootContext inv) clause.body := by
  have hrequest : Expr.evalAt e.registry limit 1 (rootContext inv) (.var "request") =
      .ok inv.request := by
    rw [Expr.evalAt.eq_def, if_neg (Nat.not_le.2 hlimit)]
    rfl
  rw [Expr.eval, choice, Expr.evalAt.eq_def, if_neg (Nat.not_le.2 (Nat.zero_lt_of_lt hlimit))]
  simp only [Nat.zero_add, hrequest, evalCases_clauses, bind, Except.bind]
  cases e.clauses.find? fun clause => e.registry.accepts [clause.request] inv.request with
  | none =>
      show Expr.evalAt _ _ _ _ (.const _) = _
      rw [Expr.evalAt.eq_def, if_neg (Nat.not_le.2 hlimit)]
      rfl
  | some clause =>
      simp only [Option.elim, Expr.evalAt_eq_of_agreeOn (agreeOn_bind_request _ inv)]
      cases Expr.evalAt e.registry limit 1 (rootContext inv) clause.body <;> rfl

/-- The name of a clause goes into the result of its success and nowhere else. -/
theorem succeed_rename (clause clause' : String) (payload state : Value) (emit : List Value) :
    succeed clause' payload state emit =
      (fun result => { result with clause := clause' }) <$> succeed clause payload state emit := by
  unfold succeed
  cases payload.asRecord with
  | error error => rfl
  | ok fields =>
      dsimp only [bind, Except.bind]
      split
      · rename_i events _
        cases events.asSeq <;> rfl
      · rfl

/-- Engines with the same brands read the value of a body alike, under whatever clause names. -/
theorem finish_sameAnswer {e' : Engine} (hregistry : e'.registry = e.registry)
    (hbrand : e'.errorBrand = e.errorBrand) (limit limit' : Nat) (clause clause' : String)
    (result state : Value) (emit : List Value) :
    SameAnswer limit limit' (e.finish clause result state emit).result
      (e'.finish clause' result state emit).result := by
  cases result with
  | left payload =>
      rw [finish, finish, succeed_rename clause clause']
      cases hsucceed : succeed clause payload state emit with
      | error error =>
          have herror := succeed_operandErrors clause payload state emit error hsucceed
          exact .error error (EvalError.isDepthExceeded_of_ofOperands herror)
      | ok success => exact .success _ _ _ _ _
  | right v =>
      have hclassify : e'.classify v = e.classify v := by
        unfold classify
        rw [hregistry, hbrand]
      rw [finish, finish, hclassify]
      exact .failure _
  | _ => exact .noResult _ _ _

/-- Dispatch and the choice by brand are one mechanism. An engine whose only clause takes every
    request and chooses among the clauses of another one answers every call as that one does: with
    the same response, state and events, the same failure or the same error, up to the name of the
    clause and the limit, which is one greater. -/
theorem invoke_choice {contract : Contract} {config : Config} {e e' : Engine} {name : String}
    (hmade : ofContract contract config = .ok e) (hchooses : e'.ChoosesFor e name)
    (inv : Invocation) :
    SameAnswer e.maxDepth (e.maxDepth + 1) (e.invoke inv).result (e'.invoke inv).result := by
  have hlimit : 1 < e.maxDepth + 1 := Nat.succ_lt_succ (maxDepth_pos hmade)
  -- The only clause accepts the request, so that the call runs the choice.
  have hfirst : e'.FirstAccepting inv.request [] ⟨name, Registry.anyBrand, e.choice⟩ [] :=
    ⟨hchooses.clauses, by simp, .inl rfl⟩
  rw [invoke_of_firstAccepting hfirst]
  show SameAnswer _ _ _ (e'.run name e.choice inv).result
  rw [run, hchooses.registry, hchooses.maxDepth, eval_choice hlimit, invoke, dispatch_eq]
  cases e.clauses.find? fun clause => e.registry.accepts [clause.request] inv.request with
  | none =>
      have hclassify : e'.classify (Failure.error e.errorBrand dispatchError).toValue =
          .error e.errorBrand dispatchError :=
        classify_error dispatchError (.inl hchooses.errorBrand.symm)
      show SameAnswer _ _ _ (.ok (.failure (e'.classify (Failure.error _ _).toValue)))
      rw [hclassify]
      exact .failure _
  | some clause =>
      show SameAnswer _ _ (e.run clause.id clause.body inv).result _
      rw [run, Expr.eval]
      dsimp only [Option.elim]
      -- The body is evaluated one level down, and there is one level more.
      have hbody : StopsAlike e.maxDepth (e.maxDepth + 1)
          (Expr.evalAt e.registry e.maxDepth 0 (rootContext inv) clause.body)
          (Expr.evalAt e.registry (e.maxDepth + 1) 1 (rootContext inv) clause.body) :=
        Expr.evalAt_stopsAlike rfl
      rcases hbody with ⟨hexceeded, hexceeded'⟩ | ⟨hsame, herrors⟩
      · rw [hexceeded, hexceeded']
        exact .exceeded
      · rw [← hsame]
        cases hresult : Expr.evalAt e.registry e.maxDepth 0 (rootContext inv) clause.body with
        | error error => exact .error error (herrors error hresult)
        | ok result => exact finish_sameAnswer hchooses.registry hchooses.errorBrand _ _ _ _ _ _ _

/-- The desk for orders, folded into one clause, answers a late order as the desk itself does. -/
theorem invoke_choice_of_orderDesk :
    let contract : Contract := ⟨"desk", orderDesk.clauses, none, [("LateOrder", "Order")], none⟩
    let folded : Engine :=
      { orderDesk with clauses := [⟨"any", Registry.anyBrand, orderDesk.choice⟩], maxDepth := 9 }
    let lateOrder : Invocation := ⟨.unit, .unit, [], .branded "LateOrder" [], .unit⟩
    ofContract contract ⟨.declared, false, 8, "Error"⟩ = .ok orderDesk ∧
      folded.ChoosesFor orderDesk "any" ∧
      SameAnswer 8 9 (orderDesk.invoke lateOrder).result (folded.invoke lateOrder).result := by
  intro contract folded lateOrder
  have hmade : ofContract contract ⟨.declared, false, 8, "Error"⟩ = .ok orderDesk := by
    with_unfolding_all rfl
  have hchooses : folded.ChoosesFor orderDesk "any" := ⟨rfl, rfl, rfl, rfl⟩
  exact ⟨hmade, hchooses, invoke_choice hmade hchooses lateOrder⟩

end Engine

end ClauseEngine
