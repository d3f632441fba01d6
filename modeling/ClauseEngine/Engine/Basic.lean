/-
Module: ClauseEngine.Engine.Basic
Purpose: Engines. A loaded contract answers a request with the first clause whose brand the request
  can be cast to; the value of the clause body decides between success and failure. Errors in the
  logic itself are kept apart from the failures that a contract reports.
Main exports: Engine, Engine.ofContract, Engine.load, Engine.dispatch, Engine.classify,
  Engine.finish, Invocation, Engine.init, Engine.invoke
-/
import ClauseEngine.Config
import ClauseEngine.Contract
import ClauseEngine.Engine.Log
import ClauseEngine.Expr.Evaluation
import ClauseEngine.Outcome

namespace ClauseEngine

/-- A contract that is ready to serve calls. -/
structure Engine where
  id : String
  clauses : List Clause
  initBody : Option Expr
  registry : Registry
  errorBrand : String
  maxDepth : Nat

/-- The inputs of a call. The current time is one of them: an engine reads no clock. -/
structure Invocation where
  contract : Value
  state : Value
  emit : List Value
  request : Value
  now : Value

namespace Engine

/-- The message of a request that no clause accepts. -/
def dispatchError : String := "Dispatch Error: no clause in the contract matches the request"

/-- The brand of the state that a contract without an init body starts with. -/
def stateBrand : String := "org.accordproject.cicero.contract.AccordContractState"

/-- The clause name under which a set-up is reported. -/
def initClause : String := "init"

/-- A configuration error as a failure to load. -/
def checked {α : Type} : Except ConfigError α → Result α
  | .ok a => .ok a
  | .error error => .error (.config error)

/-- The engine of a contract under some settings. An error brand that the contract declares
    replaces the one of the settings. -/
def ofContract (contract : Contract) (config : Config) : Result Engine := do
  checked config.validate
  let errorBrand := contract.errorBrand.getD config.errorBrand
  if errorBrand.isEmpty then throw (.config (.emptyContractErrorBrand contract.id))
  return {
    id := contract.id
    clauses := contract.clauses
    initBody := contract.init
    registry := Registry.ofEdges contract.edges config.subtyping config.multiBrandCast
    errorBrand := errorBrand
    maxDepth := config.maxDepth }

/-- Load an engine from the document of a bundle. The settings are checked first. -/
def load (document : Json) (config : Config) : Result Engine := do
  checked config.validate
  ofContract (← Contract.read document) config

/-- What is recorded once an engine is loaded. -/
def loadLog (e : Engine) : List LogEntry := [.loaded e.id e.clauses.length e.registry.size]

/-- The entry of a move between phases. -/
def moved (e : Engine) (source target : Phase) : LogEntry := .moved e.id source target none

/-- The first clause whose brand a request can be cast to, with the cast request. -/
def dispatchAmong (registry : Registry) (request : Value) :
    List Clause → Result (Option (Clause × Value))
  | [] => .ok none
  | clause :: rest => do
      match ← registry.cast [clause.request] request with
      | .left v => return some (clause, v)
      | _ => dispatchAmong registry request rest

def dispatch (e : Engine) (request : Value) : Result (Option (Clause × Value)) :=
  dispatchAmong e.registry request e.clauses

/-- A failure value is an error if its brand is the error brand or below it and it has a message. -/
def classify (e : Engine) (v : Value) : Failure :=
  match v with
  | .branded brand fields =>
      if brand = e.errorBrand || e.registry.isSubBrand brand e.errorBrand then
        match fields.lookup "message" with
        | some (.str message) => .error brand message
        | _ => .unshaped v
      else .unshaped v
  | _ => .unshaped v

/-- The result that the record of a successful body gives. What it leaves out is passed through,
    and a missing response is unit. -/
def succeed (clause : String) (payload : Value) (state : Value) (emit : List Value) :
    Result Success := do
  let fields ← payload.asRecord
  let emitted ← match fields.lookup "emit" with
    | some events => events.asSeq
    | none => pure emit
  return {
    clause := clause
    response := (fields.lookup "response").getD .unit
    state := (fields.lookup "state").getD state
    emit := emitted }

/-- The warning that goes with a failure, if any. -/
def warnings (e : Engine) (clause : String) : Failure → List LogEntry
  | .error _ _ => []
  | .unshaped v => [.unshaped e.id clause v]

/-- Interpret the value of a body: a record on the left is a success, anything on the right a
    failure. -/
def finish (e : Engine) (clause : String) (result state : Value) (emit : List Value) :
    Run Outcome :=
  match result with
  | .left payload =>
      match succeed clause payload state emit with
      | .ok success => ⟨[e.moved .evaluating .succeeded], .ok (.success success)⟩
      | .error error => .fail error
  | .right v =>
      let failure := e.classify v
      ⟨e.warnings clause failure ++ [e.moved .evaluating .failed], .ok (.failure failure)⟩
  | other => .fail (.mismatch (.clauseResult clause other.kind))

/-- The variables that a body can refer to. -/
def rootContext (inv : Invocation) : Context :=
  [("contract", inv.contract), ("state", inv.state), ("request", inv.request), ("now", inv.now),
   ("emit", .seq inv.emit)]

/-- Evaluate a body and interpret its value. -/
def run (e : Engine) (clause : String) (body : Expr) (inv : Invocation) : Run Outcome :=
  match Expr.eval e.registry e.maxDepth (rootContext inv) body with
  | .ok result => e.finish clause result inv.state inv.emit
  | .error error => .fail error

/-- The state of a contract that needs no set-up. -/
def initialState : Value :=
  .branded stateBrand [("stateId", .str (stateBrand ++ "#1"))]

/-- Set up a contract: run its init body, or start from the initial state if it has none. -/
def init (e : Engine) (contract now : Value) : Run Outcome :=
  .after [e.moved .initial .evaluating]
    (match e.initBody with
    | some body => e.run initClause body ⟨contract, .unit, [], .unit, now⟩
    | none =>
        ⟨[e.moved .evaluating .succeeded],
          .ok (.success ⟨initClause, .unit, initialState, []⟩)⟩)

/-- Answer a request. -/
def invoke (e : Engine) (inv : Invocation) : Run Outcome :=
  .after [e.moved .initial .dispatching]
    (match e.dispatch inv.request with
    | .error error => .fail error
    | .ok none =>
        ⟨[e.moved .dispatching .failed], .ok (.failure (.error e.errorBrand dispatchError))⟩
    | .ok (some (clause, request)) =>
        .after [.moved e.id .dispatching .evaluating (some clause.id)]
          (e.run clause.id clause.body { inv with request := request }))

end Engine

end ClauseEngine
