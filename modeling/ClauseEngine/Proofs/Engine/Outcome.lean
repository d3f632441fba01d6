/-
Module: ClauseEngine.Proofs.Engine.Outcome
Purpose: What the value of a body comes to, and back. A failure that has been classified is
  classified as itself when it is put into a value again, and the record of a success leaves nothing
  to be passed through; so an outcome that is sent on the wire and read back is interpreted as the
  outcome it was.
Main exports: Outcome.toValue, Outcome.values, Outcome.decode_encode_of_survives,
  Engine.classify_error, Engine.classify_cases, Engine.classify_toValue_classify, Engine.Returns,
  Engine.Settled, Engine.settled_of_returns, Engine.finish_toValue, Engine.finish_decode_encode
-/
import ClauseEngine.Proofs.Engine.Errors
import ClauseEngine.Proofs.Value.Wire

namespace ClauseEngine

/-! ### Outcomes as values

The wire form of an outcome is that of a value, the one that a body would have to come to. Reading
an outcome back is reading that value back. -/

namespace Outcome

/-- The value of a body that would come to an outcome, with nothing left to be passed through. -/
def toValue : Outcome → Value
  | .success result => .left (.record
      [("emit", .seq result.emit), ("response", result.response), ("state", result.state)])
  | .failure reason => .right reason.toValue

/-- The wire form of an outcome is that of its value: none of its names can be taken for a tag. -/
theorem encode_eq (o : Outcome) : o.encode = o.toValue.encode := by
  cases o with
  | success result =>
      have hemit : Value.isReserved "emit" = false := by decide
      have hresponse : Value.isReserved "response" = false := by decide
      have hstate : Value.isReserved "state" = false := by decide
      simp [encode, toValue, Value.encode, Value.encodeFields, hemit, hresponse, hstate]
  | failure reason => rw [encode, toValue, Value.encode]

/-- The values that an outcome is made of. An error is made of texts only. -/
def values : Outcome → List Value
  | .success result => result.response :: result.state :: result.emit
  | .failure (.error _ _) => []
  | .failure (.unshaped v) => [v]

/-- An outcome is read back as its value if the values it is made of are read back. -/
theorem decode_encode_of_survives {o : Outcome}
    (h : ∀ v ∈ o.values, Value.decode v.encode = .ok v) :
    Value.decode o.encode = .ok o.toValue := by
  rw [encode_eq]
  cases o with
  | success result =>
      obtain ⟨hresponse, h⟩ := List.forall_mem_cons.1 h
      obtain ⟨hstate, hemit⟩ := List.forall_mem_cons.1 h
      apply Value.decode_left
      apply Value.decode_record
      simpa [hresponse, hstate] using Value.decode_seq hemit
  | failure reason =>
      apply Value.decode_right
      cases reason with
      | error brand message =>
          apply Value.decode_branded
          simp [Value.encode, Value.decode]
      | unshaped v => exact h v List.mem_cons_self

end Outcome

namespace Engine

variable {e : Engine}

/-! ### Failures

Classifying keeps the brand and the message of an error and drops its other fields. What is kept is
an error of the same brand again, and any other value is kept whole, so that a second classification
changes nothing. -/

/-- A value of the error brand, or of one below it, with nothing but a message is an error. -/
theorem classify_error {brand : String} (message : String)
    (h : brand = e.errorBrand ∨ e.registry.isSubBrand brand e.errorBrand = true) :
    e.classify (Failure.error brand message).toValue = .error brand message := by
  have hbrand :
      (decide (brand = e.errorBrand) || e.registry.isSubBrand brand e.errorBrand) = true := by
    simpa using h
  rw [Failure.toValue, classify, if_pos hbrand]
  rfl

/-- A failure is an error of the error brand or of one below it, or it is the value itself. -/
theorem classify_cases (e : Engine) (v : Value) :
    (∃ brand message, e.classify v = .error brand message ∧
      (brand = e.errorBrand ∨ e.registry.isSubBrand brand e.errorBrand = true)) ∨
    e.classify v = .unshaped v := by
  unfold classify
  split
  · split
    · rename_i brand fields hbrand
      split
      · rename_i message _
        exact .inl ⟨brand, message, rfl, by simpa using hbrand⟩
      · exact .inr rfl
    · exact .inr rfl
  · exact .inr rfl

/-- A failure that has been classified is classified as itself. -/
theorem classify_toValue_classify (e : Engine) (v : Value) :
    e.classify (e.classify v).toValue = e.classify v := by
  rcases e.classify_cases v with ⟨brand, message, herror, hbrand⟩ | hunshaped
  · rw [herror]
    exact classify_error message hbrand
  · rw [hunshaped]
    exact hunshaped

/-! ### Outcomes of calls

All failures that a call reports come from classifying a value, except that of dispatch, which has
the error brand itself. The interpretation of the value of an outcome is therefore that outcome. -/

/-- Some call of an engine ends with an outcome. -/
def Returns (e : Engine) (o : Outcome) : Prop :=
  (∃ inv, (e.invoke inv).result = .ok o) ∨
    ∃ contract now, (e.init contract now).result = .ok o

/-- An outcome whose failure, if it is one, is classified as itself. -/
def Settled (e : Engine) (o : Outcome) : Prop :=
  ∀ reason, o = .failure reason → e.classify reason.toValue = reason

/-- What the value of a body comes to is settled. -/
theorem finish_settled (e : Engine) (clause : String) (result state : Value) (emit : List Value) :
    Yields e.Settled (e.finish clause result state emit).result := by
  unfold finish
  split
  · split
    · rintro _ ⟨⟩ reason ⟨⟩
    · exact yields_error _
  · rename_i v
    rintro _ ⟨⟩ reason ⟨⟩
    exact classify_toValue_classify e v
  · exact yields_error _

theorem run_settled (e : Engine) (clause : String) (body : Expr) (inv : Invocation) :
    Yields e.Settled (e.run clause body inv).result := by
  rw [run_result]
  exact Yields.after fun result => finish_settled e clause result inv.state inv.emit

/-- The failures that calls report are classified as themselves, that of dispatch included. -/
theorem settled_of_returns {o : Outcome} (h : e.Returns o) : e.Settled o := by
  rcases h with ⟨inv, hresult⟩ | ⟨contract, now, hresult⟩
  · rcases e.invoke_result_cases inv with hdispatch | ⟨clause, _, hrun⟩
    · rw [hdispatch] at hresult
      cases hresult
      rintro reason ⟨⟩
      exact classify_error dispatchError (.inl rfl)
    · rw [hrun] at hresult
      exact run_settled e _ _ _ o hresult
  · rcases e.init_result_cases contract now with hinitial | ⟨body, _, hrun⟩
    · rw [hinitial] at hresult
      cases hresult
      rintro reason ⟨⟩
    · rw [hrun] at hresult
      exact run_settled e _ _ _ o hresult

/-- The value of an outcome comes to that outcome, whatever there is to be passed through. -/
theorem finish_toValue {o : Outcome} (h : e.Settled o) {clause : String}
    (hclause : ∀ result, o = .success result → clause = result.clause) (state : Value)
    (emit : List Value) : (e.finish clause o.toValue state emit).result = .ok o := by
  cases o with
  | success result =>
      rw [hclause result rfl]
      rfl
  | failure reason =>
      rw [Outcome.toValue, finish, h reason rfl]

/-- Outcomes survive their own wire form. If the values that an outcome of a call is made of are
    read back from their wire forms, as portable values are, its own wire form is read as a value
    which comes to the same outcome again, under the name of the clause that gave it and whatever
    state and events there are to be passed through. -/
theorem finish_decode_encode (e : Engine) (o : Outcome) (hreturns : e.Returns o)
    (hsurvives : ∀ v ∈ o.values, Value.decode v.encode = .ok v) :
    ∃ w, Value.decode o.encode = .ok w ∧
      ∀ clause, (∀ result, o = .success result → clause = result.clause) →
        ∀ state emit, (e.finish clause w state emit).result = .ok o := by
  exists o.toValue
  constructor
  · exact Outcome.decode_encode_of_survives hsurvives
  · intro clause hclause state emit
    exact finish_toValue (settled_of_returns hreturns) hclause state emit

/-- An engine that takes the request for the value of its body, where late errors are errors. -/
def echo : Engine where
  id := "echo"
  clauses := [⟨"echo", Registry.anyBrand, .var "request"⟩]
  initBody := none
  registry := ⟨[("LateError", ["Error"])], false⟩
  errorBrand := "Error"
  maxDepth := 1

/-- A response with a field that is called as a tag is, under a state that the body passed through,
    and a late error that has lost a field. -/
theorem finish_decode_encode_of_echo :
    let success : Outcome :=
      .success ⟨"echo", .record [("$right", .bool true)], .str "old", [.bool false]⟩
    let failure : Outcome := .failure (.error "LateError" "late")
    (echo.Returns success ∧ (∀ v ∈ success.values, Value.decode v.encode = .ok v) ∧
      ∃ w, Value.decode success.encode = .ok w ∧
        (echo.finish "echo" w (.str "new") []).result = .ok success) ∧
    (echo.Returns failure ∧ (∀ v ∈ failure.values, Value.decode v.encode = .ok v) ∧
      ∃ w, Value.decode failure.encode = .ok w ∧
        (echo.finish "init" w (.str "new") []).result = .ok failure) := by
  intro success failure
  have hsuccess : echo.Returns success :=
    .inl ⟨⟨.unit, .str "old", [.bool false],
      .left (.record [("response", .record [("$right", .bool true)])]), .unit⟩,
      by with_unfolding_all rfl⟩
  have hsurvives : ∀ v ∈ success.values, Value.decode v.encode = .ok v := by
    intro v hv
    simp only [success, Outcome.values, List.mem_cons, List.not_mem_nil, or_false] at hv
    rcases hv with rfl | rfl | rfl
    · exact Value.decode_record (by simp [Value.encode, Value.decode])
    · rw [Value.encode, Value.decode]
    · rw [Value.encode, Value.decode]
  have hfailure : echo.Returns failure :=
    .inl ⟨⟨.unit, .unit, [],
      .right (.branded "LateError" [("code", .nat 7), ("message", .str "late")]), .unit⟩,
      by with_unfolding_all rfl⟩
  have hnone : ∀ v ∈ failure.values, Value.decode v.encode = .ok v := by
    simp [failure, Outcome.values]
  obtain ⟨w, hdecode, hfinish⟩ := finish_decode_encode echo success hsuccess hsurvives
  obtain ⟨w', hdecode', hfinish'⟩ := finish_decode_encode echo failure hfailure hnone
  refine ⟨⟨hsuccess, hsurvives, w, hdecode, hfinish "echo" ?_ _ _⟩,
    hfailure, hnone, w', hdecode', hfinish' "init" ?_ _ _⟩
  · intro result hresult
    exact congrArg Success.clause (Outcome.success.inj hresult)
  · intro result hresult
    exact absurd hresult (by simp [failure])

end Engine

end ClauseEngine
