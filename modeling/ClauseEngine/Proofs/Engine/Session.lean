/-
Module: ClauseEngine.Proofs.Engine.Session
Purpose: What a session carries from call to call. It holds the wire forms of a state and of events;
  a success replaces them and nothing else does. Where they are read back as they were written, a
  session on the wire makes the calls that a session of values makes, which never writes anything
  down. And whatever the steps are, all that a session holds and returns has its fields in order.
Main exports: Memory, Memory.after, Memory.write, Session.perform_write, Session.performAll_write,
  Session.performAll_of_no_success, Memory.Survives, Memory.call, Memory.callAll,
  Session.Step.LeavesMemory, Session.perform_eq_call, Session.performAll_eq_callAll, Session.Ordered,
  Session.perform_ordered, Session.performAll_ordered, Session.performAll_start_ordered
-/
import ClauseEngine.Proofs.Engine.Ordered

namespace ClauseEngine

/-- What a session is about: the state of a contract and the events emitted so far. -/
structure Memory where
  state : Value
  emit : List Value

namespace Memory

/-- Before the first call the state is unit and there are no events. -/
def start : Memory := ⟨.unit, []⟩

/-- The memory after a call: that of a success, else the one before. -/
def after (m : Memory) : Result Outcome → Memory
  | .ok (.success result) => ⟨result.state, result.emit⟩
  | _ => m

/-- The session that carries a memory. -/
def write (m : Memory) : Session := ⟨m.state.encode, .array (Value.encodeItems m.emit)⟩

end Memory

namespace Session

open Memory (write)

variable {engine : Engine} {common : List (String × Json)} {m : Memory} {s : Session} {step : Step}

/-! ### One step and many

A session that carries a memory carries one after every step: the memory after the result of the
step. By induction over the steps, a whole session comes down to its results. -/

/-- A session starts with the wire form of an empty memory. -/
theorem start_eq : start = Memory.start.write := by
  simp [start, write, Memory.start, Value.encode, Value.encodeItems]

theorem advance_write (m : Memory) (result : Result Outcome) :
    m.write.advance result = (m.after result).write := by
  cases result with
  | error error => rfl
  | ok outcome => cases outcome <;> rfl

/-- The step lemma: a session that carries a memory carries the one after the result of a step. -/
theorem perform_write (engine : Engine) (common : List (String × Json)) (m : Memory) (step : Step) :
    (m.write.perform engine common step).1 =
      (m.after (m.write.perform engine common step).2.result).write :=
  advance_write m _

/-- After any steps a session carries what the results leave behind, taken in their order. -/
theorem performAll_write (engine : Engine) (common : List (String × Json)) (m : Memory)
    (steps : List Step) :
    (m.write.performAll engine common steps).1 =
      ((m.write.performAll engine common steps).2.foldl (fun m run => m.after run.result) m).write := by
  induction steps generalizing m with
  | nil => rfl
  | cons step rest ih =>
      rw [performAll, perform_write, List.foldl_cons]
      exact ih _

/-- Failures and errors leave no trace: a session without a success ends as it began. -/
theorem performAll_of_no_success {steps : List Step}
    (h : ∀ run ∈ (s.performAll engine common steps).2, ∀ result, run.result ≠ .ok (.success result)) :
    (s.performAll engine common steps).1 = s := by
  induction steps with
  | nil => rfl
  | cons step rest ih =>
      rw [performAll] at h ⊢
      obtain ⟨hfirst, hothers⟩ := List.forall_mem_cons.1 h
      have hsame : (s.perform engine common step).1 = s := by
        show s.advance (s.perform engine common step).2.result = s
        unfold advance
        split
        · rename_i result hresult
          exact absurd hresult (hfirst result)
        · rfl
      rw [hsame] at hothers ⊢
      exact ih hothers

/-! ### The inputs of a step

What a step finds under a name is its own, or carried, or common, unless the step drops it. So the
memory of a session shows under two names and nowhere else. -/

/-- The inputs that a step gives have their names in order, as the fields of an object have, and it
    neither gives nor drops the state and the events. -/
structure Step.LeavesMemory (step : Step) : Prop where
  inputs : Fields.Ordered step.inputs
  given : step.inputs.lookup "emit" = none ∧ step.inputs.lookup "state" = none
  kept : "emit" ∉ step.dropped ∧ "state" ∉ step.dropped

/-- Where a step finds an input: among its own, then among what is carried, then among the common
    ones. -/
theorem get?_inputs (hinputs : Fields.Ordered step.inputs) (name : String) :
    (s.inputs common step).get? name =
      if name ∈ step.dropped then none
      else (step.inputs.lookup name).or
        (([("emit", s.emit), ("state", s.state)].lookup name).or (common.lookup name)) := by
  have hcarried : Fields.Ordered [("emit", s.emit), ("state", s.state)] := by
    have hnames : "emit" < "state" := by decide
    simpa [Fields.Ordered] using hnames
  show List.lookup name _ = _
  rw [Fields.lookup_foldl_erase, Fields.lookup_overlay hinputs, Fields.lookup_overlay hcarried]

/-- Inputs other than the state and the events are the same in every session. -/
theorem get?_inputs_of_ne (hinputs : Fields.Ordered step.inputs) {name : String}
    (hemit : name ≠ "emit") (hstate : name ≠ "state") (s s' : Session) :
    (s.inputs common step).get? name = (s'.inputs common step).get? name := by
  simp [get?_inputs hinputs, Fields.lookup_cons, hemit, hstate]

theorem get?_inputs_state (hstep : step.LeavesMemory) :
    (s.inputs common step).get? "state" = some s.state := by
  simp [get?_inputs hstep.inputs, Fields.lookup_cons, hstep.given.2, hstep.kept.2]

theorem get?_inputs_emit (hstep : step.LeavesMemory) :
    (s.inputs common step).get? "emit" = some s.emit := by
  simp [get?_inputs hstep.inputs, hstep.given.1, hstep.kept.1]

/-! ### A session of values

The wire is out of sight where what is carried survives it. A step then makes the call that its
other inputs ask for, on the memory itself, and the calls of a session are those of a session of
values. -/

end Session

namespace Memory

/-- The state and the events are read back from their wire forms. -/
structure Survives (m : Memory) : Prop where
  state : Value.decode m.state.encode = .ok m.state
  emit : ∀ event ∈ m.emit, Value.decode event.encode = .ok event

/-- Portable values survive the wire. -/
theorem Survives.of_portable {m : Memory} (hstate : m.state.Portable)
    (hemit : ∀ event ∈ m.emit, event.Portable) : m.Survives :=
  ⟨Value.decode_encode _ hstate, fun event hevent => Value.decode_encode _ (hemit event hevent)⟩

theorem survives_start : start.Survives :=
  .of_portable trivial fun _ h => absurd h List.not_mem_nil

/-- What a call leaves behind survives on any memory that does, if it does on one. -/
theorem Survives.after {m m' : Memory} (hm : m.Survives) {result : Result Outcome}
    (h : (m'.after result).Survives) : (m.after result).Survives := by
  cases result with
  | error error => exact hm
  | ok outcome =>
      cases outcome with
      | success success => exact h
      | failure reason => exact hm

/-- The call of a step on a memory. The other inputs are read as they are before the first call. -/
def call (engine : Engine) (common : List (String × Json)) (m : Memory) (step : Session.Step) :
    Run Outcome :=
  let input := Session.start.inputs common step
  if step.isInit then Session.callInit engine input
  else
    match Invocation.read input with
    | .ok inv => engine.invoke { inv with state := m.state, emit := m.emit }
    | .error error => .fail error

/-- The calls of steps, each on the memory that the one before leaves. -/
def callAll (engine : Engine) (common : List (String × Json)) (m : Memory) :
    List Session.Step → Memory × List (Run Outcome)
  | [] => (m, [])
  | step :: rest =>
      let run := m.call engine common step
      let others := callAll engine common (m.after run.result) rest
      (others.1, run :: others.2)

end Memory

namespace Session

variable {engine : Engine} {common : List (String × Json)} {m : Memory} {step : Step}

theorem readState_inputs (hm : m.Survives) (hstep : step.LeavesMemory) :
    Invocation.readState (m.write.inputs common step) = .ok m.state := by
  rw [Invocation.readState, get?_inputs_state hstep]
  exact hm.state

theorem readEmit_inputs (hm : m.Survives) (hstep : step.LeavesMemory) :
    Invocation.readEmit (m.write.inputs common step) = .ok m.emit := by
  have hevents : Value.decode m.write.emit = .ok (.seq m.emit) := by
    have hseq := Value.decode_seq hm.emit
    rwa [Value.encode] at hseq
  rw [Invocation.readEmit, get?_inputs_emit hstep]
  dsimp only
  rw [hevents]
  rfl

/-- Inputs are read with the memory in the place of what a session starts with. -/
theorem read_inputs (hm : m.Survives) (hstep : step.LeavesMemory) :
    Invocation.read (m.write.inputs common step) =
      (fun inv => { inv with state := m.state, emit := m.emit }) <$>
        Invocation.read (start.inputs common step) := by
  have hother {name : String} (hemit : name ≠ "emit") (hstate : name ≠ "state") :
      Invocation.required "invocation" (m.write.inputs common step) name =
        Invocation.required "invocation" (start.inputs common step) name := by
    rw [Invocation.required, Invocation.required,
      get?_inputs_of_ne hstep.inputs hemit hstate m.write start]
  have hnow : Invocation.readNow (m.write.inputs common step) =
      Invocation.readNow (start.inputs common step) := by
    rw [Invocation.readNow, Invocation.readNow, hother (by decide) (by decide)]
  rw [Invocation.read, hother (by decide) (by decide), hother (by decide) (by decide), hnow,
    readState_inputs hm hstep, readEmit_inputs hm hstep, Invocation.read, start_eq,
    readState_inputs Memory.survives_start hstep, readEmit_inputs Memory.survives_start hstep]
  simp only [ok_bind, map_bind, map_pure]

/-- Setting up a contract looks at neither the state nor the events. -/
theorem callInit_inputs (hinputs : Fields.Ordered step.inputs) (s : Session) :
    callInit engine (s.inputs common step) = callInit engine (start.inputs common step) := by
  have hvalue {name : String} (hemit : name ≠ "emit") (hstate : name ≠ "state") :
      valueOf (s.inputs common step) name = valueOf (start.inputs common step) name := by
    rw [valueOf, valueOf, get?_inputs_of_ne hinputs hemit hstate s start]
  rw [callInit, callInit, hvalue (by decide) (by decide), hvalue (by decide) (by decide)]

/-- One step on the wire is one call on the memory. -/
theorem perform_eq_call (hm : m.Survives) (hstep : step.LeavesMemory) :
    m.write.perform engine common step =
      ((m.after (m.call engine common step).result).write, m.call engine common step) := by
  have hrun : (m.write.perform engine common step).2 = m.call engine common step := by
    show (if step.isInit then _ else _) = _
    rw [Memory.call, callInit_inputs hstep.inputs, callInvoke, read_inputs hm hstep]
    cases Invocation.read (start.inputs common step) <;> rfl
  refine Prod.ext ?_ hrun
  rw [perform_write, hrun]

/-- A session on the wire is a session of values, as long as what its calls leave behind survives
    the wire and no step meddles with it. -/
theorem performAll_eq_callAll {steps : List Step} (hm : m.Survives)
    (hsteps : ∀ step ∈ steps, step.LeavesMemory)
    (hruns : ∀ run ∈ (m.callAll engine common steps).2, (m.after run.result).Survives) :
    m.write.performAll engine common steps =
      ((m.callAll engine common steps).1.write, (m.callAll engine common steps).2) := by
  induction steps generalizing m with
  | nil => rfl
  | cons step rest ih =>
      obtain ⟨hstep, hrest⟩ := List.forall_mem_cons.1 hsteps
      obtain ⟨hfirst, hothers⟩ := List.forall_mem_cons.1 hruns
      have hafter := ih hfirst hrest fun run hrun => hfirst.after (hothers run hrun)
      rw [performAll, perform_eq_call hm hstep, Memory.callAll]
      dsimp only
      rw [hafter]

/-! ### Order along a session

What a session holds is in order before the first step, and every step keeps it so: the inputs of the
step are in order, hence its outcome is, hence what is written down is. -/

/-- What a session holds has its fields in order. -/
structure Ordered (s : Session) : Prop where
  state : s.state.Ordered
  emit : s.emit.Ordered

theorem ordered_start : start.Ordered := ⟨trivial, trivial⟩

theorem ordered_write (hstate : m.state.Ordered) (hemit : ∀ event ∈ m.emit, event.Ordered) :
    m.write.Ordered := by
  have hevents := Value.ordered_encode (Value.ordered_seq.2 hemit)
  rw [Value.encode] at hevents
  exact ⟨Value.ordered_encode hstate, hevents⟩

variable {s : Session}

/-- Inputs that are put together from documents in order are in order. -/
theorem inputs_ordered (hs : s.Ordered) (hcommon : (Json.object common).Ordered)
    (hstep : ∀ field ∈ step.inputs, field.2.Ordered) : (s.inputs common step).Ordered := by
  have hcarried : ∀ field ∈ [("emit", s.emit), ("state", s.state)], field.2.Ordered := by
    simp [hs.emit, hs.state]
  exact Json.ordered_object_foldl_erase _
    (Json.ordered_object_overlay (Json.ordered_object_overlay hcommon hcarried) hstep)

theorem callInit_ordered (hbodies : ∀ body ∈ engine.bodies, body.Ordered) {input : Json}
    (hinput : input.Ordered) : Yields Outcome.Ordered (callInit engine input).result := by
  have hvalue (name : String) : OrderedValue (valueOf input name) := by
    unfold valueOf
    cases hfound : input.get? name with
    | none => exact fun _ => Value.ordered_of_decode trivial
    | some j => exact Invocation.ordered_of_get? hinput hfound
  unfold callInit
  split
  · rename_i contract now hvalues
    obtain ⟨_, hcontract, hvalues⟩ := bind_eq_ok_iff.1 hvalues
    obtain ⟨_, hnow, hvalues⟩ := bind_eq_ok_iff.1 hvalues
    cases hvalues
    exact (Engine.call_ordered hbodies).2 _ _ (hvalue _ _ hcontract) (hvalue _ _ hnow)
  · exact yields_error _

theorem callInvoke_ordered (hbodies : ∀ body ∈ engine.bodies, body.Ordered) {input : Json}
    (hinput : input.Ordered) : Yields Outcome.Ordered (callInvoke engine input).result := by
  unfold callInvoke
  split
  · rename_i inv hread
    exact (Engine.call_ordered hbodies).1 inv (Invocation.read_ordered hinput inv hread)
  · exact yields_error _

/-- A success in order is carried on in order. -/
theorem advance_ordered (hs : s.Ordered) {result : Result Outcome}
    (h : Yields Outcome.Ordered result) : (s.advance result).Ordered := by
  cases result with
  | error error => exact hs
  | ok outcome =>
      cases outcome with
      | success success =>
          obtain ⟨-, h⟩ := List.forall_mem_cons.1 (yields_ok.1 h)
          obtain ⟨hstate, hemit⟩ := List.forall_mem_cons.1 h
          exact ordered_write (m := ⟨success.state, success.emit⟩) hstate hemit
      | failure reason => exact hs

/-- The step lemma: a step keeps what is carried in order and returns what is in order. -/
theorem perform_ordered (hbodies : ∀ body ∈ engine.bodies, body.Ordered)
    (hcommon : (Json.object common).Ordered) (hs : s.Ordered)
    (hstep : ∀ field ∈ step.inputs, field.2.Ordered) :
    (s.perform engine common step).1.Ordered ∧
      Yields Outcome.Ordered (s.perform engine common step).2.result := by
  have hinput := inputs_ordered hs hcommon hstep
  have hresult : Yields Outcome.Ordered (s.perform engine common step).2.result := by
    unfold perform
    dsimp only
    split
    · exact callInit_ordered hbodies hinput
    · exact callInvoke_ordered hbodies hinput
  exact ⟨advance_ordered hs hresult, hresult⟩

/-- In a session on an engine in order, with inputs in order, all that is carried and all that is
    returned is in order. -/
theorem performAll_ordered (hbodies : ∀ body ∈ engine.bodies, body.Ordered)
    (hcommon : (Json.object common).Ordered) (hs : s.Ordered) {steps : List Step}
    (hsteps : ∀ step ∈ steps, ∀ field ∈ step.inputs, field.2.Ordered) :
    (s.performAll engine common steps).1.Ordered ∧
      ∀ run ∈ (s.performAll engine common steps).2, Yields Outcome.Ordered run.result := by
  induction steps generalizing s with
  | nil => exact ⟨hs, fun _ h => absurd h List.not_mem_nil⟩
  | cons step rest ih =>
      obtain ⟨hstep, hrest⟩ := List.forall_mem_cons.1 hsteps
      obtain ⟨hnext, hresult⟩ := perform_ordered hbodies hcommon hs hstep
      obtain ⟨hlast, hresults⟩ := ih hnext hrest
      exact ⟨hlast, List.forall_mem_cons.2 ⟨hresult, hresults⟩⟩

/-- So it is from the start of a session, on a contract that is loaded from a document in order. -/
theorem performAll_start_ordered {document : Json} (hdocument : document.Ordered) {config : Config}
    (hload : Engine.load document config = .ok engine) (hcommon : (Json.object common).Ordered)
    {steps : List Step} (hsteps : ∀ step ∈ steps, ∀ field ∈ step.inputs, field.2.Ordered) :
    (start.performAll engine common steps).1.Ordered ∧
      ∀ run ∈ (start.performAll engine common steps).2, Yields Outcome.Ordered run.result :=
  performAll_ordered (Engine.load_ordered hdocument config engine hload) hcommon ordered_start hsteps

end Session

end ClauseEngine
