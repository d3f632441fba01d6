/-
Module: ClauseEngine.Primitive.Sum
Purpose: Operators on the two sides of a sum, and the message of a failure value.
Main exports: Sum.isLeft, Sum.unwrapLeft, Sum.unwrapRight, Value.messageText, Sum.errorMessage
-/
import ClauseEngine.Value.Wire

namespace ClauseEngine

/-- The message that a failure value carries: the string in its message field, or else its
    structural text. -/
def Value.messageText (v : Value) : String :=
  match v.fields?.bind (·.lookup "message") with
  | some (.str message) => message
  | _ => v.text

namespace Sum

def isLeft : Value → Result Value
  | .left _ => .ok (.bool true)
  | .right _ => .ok (.bool false)
  | v => v.unexpected "Left or Right"

def unwrapLeft : Value → Result Value
  | .left payload => .ok payload
  | .right payload => .error (.unwrap .left payload.text)
  | v => v.unexpected "Left or Right"

def unwrapRight : Value → Result Value
  | .right payload => .ok payload
  | .left payload => .error (.unwrap .right payload.text)
  | v => v.unexpected "Left or Right"

def errorMessage (v : Value) : Result Value := .ok (.str v.messageText)

end Sum

end ClauseEngine
