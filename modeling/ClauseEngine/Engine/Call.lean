/-
Module: ClauseEngine.Engine.Call
Purpose: Calls of an engine with inputs on the wire, one at a time or in a session that carries the
  state and the events of a contract from one call to the next.
Main exports: Invocation.read, Engine.runInit, Engine.runInvoke, Session,
  Session.Step, Session.perform, Session.performAll
-/
import ClauseEngine.Engine.Basic

namespace ClauseEngine

namespace Invocation

/-- An input that a call has to have. -/
def required (call : String) (input : Json) (name : String) : Result Value :=
  match input.get? name with
  | some j => Value.decode j
  | none => .error (.unreadable (.missingInput call name))

/-- The current time: a date-time, or the text of one. -/
def readNow (input : Json) : Result Value := do
  match ← required "invocation" input "now" with
  | .str text => return .dateTime (← Value.readDateTime text)
  | .dateTime t => return .dateTime t
  | other => throw (.mismatch (.now other.kind))

/-- The state, which is unit if it is missing. -/
def readState (input : Json) : Result Value :=
  match input.get? "state" with
  | some j => Value.decode j
  | none => .ok .unit

/-- The events so far, which are none by default. -/
def readEmit (input : Json) : Result (List Value) :=
  match input.get? "emit" with
  | some j => do (← Value.decode j).asSeq
  | none => .ok []

/-- Read the inputs of a call. -/
def read (input : Json) : Result Invocation := do
  let contract ← required "invocation" input "contract"
  let request ← required "invocation" input "request"
  let now ← readNow input
  let state ← readState input
  let emit ← readEmit input
  return ⟨contract, state, emit, request, now⟩

end Invocation

namespace Engine

/-- Load a contract under the default settings and set it up. -/
def runInit (document input : Json) : Result Outcome := do
  let engine ← load document Config.standard
  let contract ← Invocation.required "init" input "contract"
  let now ← Invocation.readNow input
  (engine.init contract now).result

/-- Load a contract under the default settings and answer one request. -/
def runInvoke (document input : Json) : Result Outcome := do
  let engine ← load document Config.standard
  let inv ← Invocation.read input
  (engine.invoke inv).result

end Engine

/-- What a session carries from call to call, on the wire. -/
structure Session where
  state : Json
  emit : Json

namespace Session

/-- A session before its first call. -/
def start : Session := ⟨.null, .array []⟩

/-- A call of a session: inputs of its own, and the names of inputs to leave out. -/
structure Step where
  isInit : Bool
  inputs : List (String × Json)
  dropped : List String

/-- The inputs of a step: the common ones, then what is carried, then the step's own. -/
def inputs (s : Session) (common : List (String × Json)) (step : Step) : Json :=
  let carried := [("emit", s.emit), ("state", s.state)]
  let all := Fields.overlay (Fields.overlay common carried) step.inputs
  .object (step.dropped.foldl (fun fields name => Fields.erase name fields) all)

/-- The value of an input, which is unit if it is missing. -/
def valueOf (input : Json) (name : String) : Result Value :=
  Value.decode ((input.get? name).getD .null)

/-- Set up a contract from the inputs of a step. -/
def callInit (engine : Engine) (input : Json) : Run Outcome :=
  match (do return (← valueOf input "contract", ← valueOf input "now") : Result (Value × Value)) with
  | .ok (contract, now) => engine.init contract now
  | .error error => .fail error

/-- Answer the request among the inputs of a step. -/
def callInvoke (engine : Engine) (input : Json) : Run Outcome :=
  match Invocation.read input with
  | .ok inv => engine.invoke inv
  | .error error => .fail error

/-- What is carried on after a call: only a success changes it. -/
def advance (s : Session) : Result Outcome → Session
  | .ok (.success result) => ⟨result.state.encode, .array (Value.encodeItems result.emit)⟩
  | _ => s

/-- Perform one step. -/
def perform (engine : Engine) (common : List (String × Json)) (s : Session) (step : Step) :
    Session × Run Outcome :=
  let input := s.inputs common step
  let run := if step.isInit then callInit engine input else callInvoke engine input
  (s.advance run.result, run)

/-- Perform steps one after the other. -/
def performAll (engine : Engine) (common : List (String × Json)) (s : Session) :
    List Step → Session × List (Run Outcome)
  | [] => (s, [])
  | step :: rest =>
      let first := s.perform engine common step
      let others := performAll engine common first.1 rest
      (others.1, first.2 :: others.2)

end Session

end ClauseEngine
