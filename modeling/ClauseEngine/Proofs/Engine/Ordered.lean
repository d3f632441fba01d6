/-
Module: ClauseEngine.Proofs.Engine.Ordered
Purpose: What calls return has its fields in order. The bodies of an engine that is loaded from a
  document in order have constants in order, so that with inputs in order they come to values in
  order; and an outcome takes its values from that of a body and from the inputs. All documents that
  are read from texts are in order, and so is all that comes back.
Main exports: Outcome.Ordered, Invocation.Ordered, Engine.call_ordered, Engine.load_ordered,
  Invocation.read_ordered, Engine.runInvoke_ordered, Engine.runInit_ordered,
  Engine.equal_returned_iff
-/
import ClauseEngine.Engine.Call
import ClauseEngine.Proofs.Engine.Outcome
import ClauseEngine.Proofs.Expr.Ordered
import ClauseEngine.Proofs.Value.Equivalence

namespace ClauseEngine

/-- The values that an outcome is made of have their fields in order. -/
def Outcome.Ordered (o : Outcome) : Prop := ∀ v ∈ o.values, v.Ordered

/-- The inputs of a call have their fields in order. -/
structure Invocation.Ordered (inv : Invocation) : Prop where
  contract : inv.contract.Ordered
  state : inv.state.Ordered
  emit : ∀ event ∈ inv.emit, event.Ordered
  request : inv.request.Ordered
  now : inv.now.Ordered

namespace Engine

variable {e : Engine}

/-! ### Calls

A success takes its parts from the record that its body came to, and what the record leaves out from
the inputs. A failure that keeps a value keeps that of its body. -/

/-- The parts of a success are fields of the record, or passed through. -/
theorem succeed_ordered (clause : String) {payload state : Value} {emit : List Value}
    (hpayload : payload.Ordered) (hstate : state.Ordered) (hemit : ∀ event ∈ emit, event.Ordered) :
    Yields (fun result => (Outcome.success result).Ordered)
      (succeed clause payload state emit) := by
  refine (Value.asRecord_yields hpayload).bind fun fields hfields => ?_
  have hfield (name : String) {default : Value} (hdefault : default.Ordered) :
      ((fields.lookup name).getD default).Ordered := by
    cases hlookup : fields.lookup name with
    | none => exact hdefault
    | some v => exact Value.ordered_of_lookup hfields hlookup
  have hsuccess {emitted : List Value} (hemitted : ∀ event ∈ emitted, event.Ordered) :
      (Outcome.success ⟨clause, (fields.lookup "response").getD .unit,
        (fields.lookup "state").getD state, emitted⟩).Ordered := by
    refine List.forall_mem_cons.2 ⟨hfield "response" Value.ordered_unit, ?_⟩
    exact List.forall_mem_cons.2 ⟨hfield "state" hstate, hemitted⟩
  dsimp only
  split
  · rename_i events hlookup
    refine (Value.asSeq_yields (Value.ordered_of_lookup hfields hlookup)).bind ?_
    exact fun emitted hemitted => yields_pure.2 (hsuccess hemitted)
  · exact yields_pure.2 (hsuccess hemit)

/-- A failure keeps the value it was made from, or only texts of it. -/
theorem classify_ordered {v : Value} (hv : v.Ordered) : (Outcome.failure (e.classify v)).Ordered := by
  rcases e.classify_cases v with ⟨brand, message, herror, -⟩ | hunshaped
  · rw [herror]
    intro w hw
    cases hw
  · rw [hunshaped]
    exact List.forall_mem_singleton.2 hv

theorem finish_ordered (clause : String) {result state : Value} {emit : List Value}
    (hresult : result.Ordered) (hstate : state.Ordered) (hemit : ∀ event ∈ emit, event.Ordered) :
    Yields Outcome.Ordered (e.finish clause result state emit).result := by
  cases result with
  | left payload =>
      have hsucceed := succeed_ordered clause (Value.ordered_left.1 hresult) hstate hemit
      rw [finish]
      split
      · rename_i success hsuccess
        exact yields_ok.2 (hsucceed success hsuccess)
      · exact yields_error _
  | right v => exact yields_ok.2 (classify_ordered (Value.ordered_right.1 hresult))
  | _ => exact yields_error _

/-- The variables that a body finds are the inputs of the call. -/
theorem rootContext_ordered {inv : Invocation} (h : inv.Ordered) : (rootContext inv).Ordered := by
  have hemit : (Value.seq inv.emit).Ordered := Value.ordered_seq.2 h.emit
  simp [rootContext, Context.Ordered, h.contract, h.state, h.request, h.now, hemit]

/-- The value of a body in order comes to an outcome in order. -/
theorem run_ordered (clause : String) {body : Expr} {inv : Invocation} (hbody : body.Ordered)
    (hinv : inv.Ordered) : Yields Outcome.Ordered (e.run clause body inv).result := by
  rw [run_result]
  refine (Expr.evalAt_ordered hbody (rootContext_ordered hinv)).bind fun result hresult => ?_
  exact finish_ordered clause hresult hinv.state hinv.emit

theorem initialState_ordered : initialState.Ordered :=
  ⟨List.pairwise_singleton _ _, Value.ordered_str _, trivial⟩

/-- Calls of an engine whose bodies are in order return what is in order, if their inputs are. -/
theorem call_ordered (hbodies : ∀ body ∈ e.bodies, body.Ordered) :
    (∀ inv, inv.Ordered → Yields Outcome.Ordered (e.invoke inv).result) ∧
      ∀ contract now, contract.Ordered → now.Ordered →
        Yields Outcome.Ordered (e.init contract now).result := by
  constructor
  · intro inv hinv
    rcases e.invoke_result_cases inv with hresult | ⟨clause, hclause, hresult⟩
    · rw [hresult]
      exact yields_ok.2 fun _ h => absurd h List.not_mem_nil
    · rw [hresult]
      apply run_ordered clause.id _ hinv
      exact hbodies clause.body (List.mem_append_left _ (List.mem_map_of_mem hclause))
  · intro contract now hcontract hnow
    rcases e.init_result_cases contract now with hresult | ⟨body, hbody, hresult⟩
    · rw [hresult]
      refine yields_ok.2 ?_
      simp [Outcome.Ordered, Outcome.values, initialState_ordered]
    · rw [hresult]
      apply run_ordered
      · exact hbodies body (List.mem_append_right _ (by simp [hbody]))
      · exact ⟨hcontract, Value.ordered_unit, fun _ h => absurd h List.not_mem_nil, Value.ordered_unit,
          hnow⟩

/-- An engine that is loaded from a document in order has bodies in order. -/
theorem load_ordered {document : Json} (hdocument : document.Ordered) (config : Config) :
    Yields (fun engine => ∀ body ∈ engine.bodies, body.Ordered) (load document config) :=
  (load_bodies Expr.inherited_ordered Expr.read_ordered hdocument config).mono fun _ h => h.1

end Engine

/-! ### Calls on the wire

Inputs are parts of a document, and a value that is decoded from a document in order is in order. -/

namespace Invocation

variable {input : Json} (hinput : input.Ordered)

include hinput

theorem ordered_of_get? {name : String} {j : Json} (h : input.get? name = some j) :
    OrderedValue (Value.decode j) :=
  fun _ => Value.ordered_of_decode (Expr.inherited_ordered.get? hinput h)

theorem required_ordered (call name : String) : OrderedValue (required call input name) := by
  unfold required
  split
  · rename_i hfound
    exact ordered_of_get? hinput hfound
  · exact yields_error _

omit hinput in
/-- The current time is a date-time, whatever it is read from. -/
theorem readNow_ordered (input : Json) : OrderedValue (readNow input) := by
  refine Yields.after fun found => ?_
  split
  · exact Yields.after fun _ => yields_pure.2 (Value.ordered_dateTime _)
  · exact yields_pure.2 (Value.ordered_dateTime _)
  · exact yields_throw _

theorem readState_ordered : OrderedValue (readState input) := by
  unfold readState
  split
  · rename_i hfound
    exact ordered_of_get? hinput hfound
  · exact yields_ok.2 Value.ordered_unit

theorem readEmit_ordered : Yields (∀ event ∈ ·, Value.Ordered event) (readEmit input) := by
  unfold readEmit
  split
  · rename_i hfound
    exact (ordered_of_get? hinput hfound).bind fun events => Value.asSeq_yields
  · exact yields_ok.2 fun _ h => absurd h List.not_mem_nil

/-- Inputs that are read from a document in order are in order. -/
theorem read_ordered : Yields Invocation.Ordered (read input) := by
  refine (required_ordered hinput _ "contract").bind fun contract hcontract => ?_
  refine (required_ordered hinput _ "request").bind fun request hrequest => ?_
  refine (readNow_ordered input).bind fun now hnow => ?_
  refine (readState_ordered hinput).bind fun state hstate => ?_
  refine (readEmit_ordered hinput).bind fun emit hemit => ?_
  exact yields_pure.2 ⟨hcontract, hstate, hemit, hrequest, hnow⟩

end Invocation

namespace Engine

variable {document input : Json} (hdocument : document.Ordered) (hinput : input.Ordered)

include hdocument hinput

/-- A request to a contract, both in documents in order, is answered in order. -/
theorem runInvoke_ordered : Yields Outcome.Ordered (runInvoke document input) := by
  refine (load_ordered hdocument Config.standard).bind fun engine hbodies => ?_
  refine (Invocation.read_ordered hinput).bind fun inv hinv => ?_
  exact (call_ordered hbodies).1 inv hinv

/-- So is the set-up of a contract. -/
theorem runInit_ordered : Yields Outcome.Ordered (runInit document input) := by
  refine (load_ordered hdocument Config.standard).bind fun engine hbodies => ?_
  refine (Invocation.required_ordered hinput _ "contract").bind fun contract hcontract => ?_
  refine (Invocation.readNow_ordered input).bind fun now hnow => ?_
  exact (call_ordered hbodies).2 contract now hcontract hnow

end Engine

/-- A call on texts, of either kind, ends with an outcome. -/
inductive Engine.ReturnsOnTexts (o : Outcome) : Prop
  | invoke {limit : Nat} {text inputText : String} {document input : Json}
      (hdocument : Json.parse? limit text = some document)
      (hinput : Json.parse? limit inputText = some input)
      (h : Engine.runInvoke document input = .ok o) : ReturnsOnTexts o
  | init {limit : Nat} {text inputText : String} {document input : Json}
      (hdocument : Json.parse? limit text = some document)
      (hinput : Json.parse? limit inputText = some input)
      (h : Engine.runInit document input = .ok o) : ReturnsOnTexts o

namespace Engine

/-- Documents that are read from texts are in order, whatever the texts are. -/
theorem ReturnsOnTexts.ordered {o : Outcome} (h : ReturnsOnTexts o) : o.Ordered := by
  cases h with
  | invoke hdocument hinput h =>
      have hordered := Json.ordered_of_parse? hdocument
      exact runInvoke_ordered hordered (Json.ordered_of_parse? hinput) o h
  | init hdocument hinput h =>
      have hordered := Json.ordered_of_parse? hdocument
      exact runInit_ordered hordered (Json.ordered_of_parse? hinput) o h

/-- Of any two values that calls on texts return, structural equality decides equivalence. -/
theorem equal_returned_iff {o o' : Outcome} (h : ReturnsOnTexts o) (h' : ReturnsOnTexts o')
    {v w : Value} (hv : v ∈ o.values) (hw : w ∈ o'.values) :
    Value.equal v w = true ↔ Value.Equivalent v w := by
  rw [Value.equal, Ordering.isEq_iff_eq_eq]
  exact Value.order_eq_iff_equivalent (h.ordered v hv) (h'.ordered w hw)

end Engine

end ClauseEngine
