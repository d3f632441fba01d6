/-
Module: ClauseEngine.Outcome
Purpose: What a call of a contract comes to: a response with the new state and the emitted events,
  or a failure that the contract reports.
Main exports: Failure, Failure.toValue, Failure.message, Success, Outcome, Outcome.encode
-/
import ClauseEngine.Value.Wire

namespace ClauseEngine

/-- A failure that a contract reports. -/
inductive Failure where
  /-- A value of the error brand, or of a brand below it, with a message. -/
  | error (brand message : String)
  /-- Any other value, kept as it is. -/
  | unshaped (value : Value)

namespace Failure

/-- The failure as a value. -/
def toValue : Failure → Value
  | .error brand message => .branded brand [("message", .str message)]
  | .unshaped value => value

/-- The message of an error, or the structural text of any other value. -/
def message : Failure → String
  | .error _ message => message
  | .unshaped value => value.text

end Failure

/-- The result of a clause that succeeds. -/
structure Success where
  clause : String
  response : Value
  state : Value
  emit : List Value

/-- The end of a call. -/
inductive Outcome where
  | success (result : Success)
  | failure (reason : Failure)

namespace Outcome

/-- The wire form: the result on the left, or the failure on the right. -/
def encode : Outcome → Json
  | .success result =>
      Value.tagged .left (.object
        [("emit", .array (Value.encodeItems result.emit)),
         ("response", result.response.encode),
         ("state", result.state.encode)])
  | .failure reason => Value.tagged .right reason.toValue.encode

end Outcome

end ClauseEngine
