import ClauseEngine.Bundle
import ClauseEngine.Calendar
import ClauseEngine.Character.Combining
import ClauseEngine.Character.Ranges
import ClauseEngine.Character.Silent
import ClauseEngine.Character.Unassigned
import ClauseEngine.Config
import ClauseEngine.Contract
import ClauseEngine.DateTime.Basic
import ClauseEngine.DateTime.Text
import ClauseEngine.Double.Basic
import ClauseEngine.Double.Rounding
import ClauseEngine.Double.Shortest
import ClauseEngine.Duration
import ClauseEngine.Engine.Basic
import ClauseEngine.Engine.Call
import ClauseEngine.Engine.Log
import ClauseEngine.Error
import ClauseEngine.Expr.Basic
import ClauseEngine.Expr.Evaluation
import ClauseEngine.Expr.Reader
import ClauseEngine.Fields
import ClauseEngine.Integer
import ClauseEngine.Json.Basic
import ClauseEngine.Json.Parser
import ClauseEngine.Json.Printer
import ClauseEngine.Json.Token
import ClauseEngine.Outcome
import ClauseEngine.Primitive.Floating
import ClauseEngine.Primitive.Sequence
import ClauseEngine.Primitive.Sum
import ClauseEngine.Primitive.Table
import ClauseEngine.Primitive.Text
import ClauseEngine.Primitive.Time
import ClauseEngine.Primitive.Whole
import ClauseEngine.Proofs.Bag
import ClauseEngine.Proofs.Bundle
import ClauseEngine.Proofs.Bundle.Faults
import ClauseEngine.Proofs.Calendar
import ClauseEngine.Proofs.DateTime.RoundTrip
import ClauseEngine.Proofs.DateTime.Shift
import ClauseEngine.Proofs.DateTime.Text
import ClauseEngine.Proofs.Double.Order
import ClauseEngine.Proofs.Duration
import ClauseEngine.Proofs.Duration.Arithmetic
import ClauseEngine.Proofs.Duration.Conversion
import ClauseEngine.Proofs.Duration.Units
import ClauseEngine.Proofs.Engine.Acceptance
import ClauseEngine.Proofs.Engine.Dispatch
import ClauseEngine.Proofs.Engine.Errors
import ClauseEngine.Proofs.Engine.LateDelivery
import ClauseEngine.Proofs.Engine.Loading
import ClauseEngine.Proofs.Engine.Messages
import ClauseEngine.Proofs.Engine.Ordered
import ClauseEngine.Proofs.Engine.Outcome
import ClauseEngine.Proofs.Engine.Phases
import ClauseEngine.Proofs.Engine.Session
import ClauseEngine.Proofs.Engine.Subtyping
import ClauseEngine.Proofs.Expr.Depth
import ClauseEngine.Proofs.Expr.Ordered
import ClauseEngine.Proofs.Expr.Reader
import ClauseEngine.Proofs.Expr.Scopes
import ClauseEngine.Proofs.Expr.Values
import ClauseEngine.Proofs.Expr.Variables
import ClauseEngine.Proofs.Expr.Variations
import ClauseEngine.Proofs.Expr.Written
import ClauseEngine.Proofs.Fields
import ClauseEngine.Proofs.Json.Ordered
import ClauseEngine.Proofs.Primitive.Division
import ClauseEngine.Proofs.Primitive.Errors
import ClauseEngine.Proofs.Primitive.Ordered
import ClauseEngine.Proofs.Primitive.Totals
import ClauseEngine.Proofs.Registry
import ClauseEngine.Proofs.Result
import ClauseEngine.Proofs.Sequence.Congruence
import ClauseEngine.Proofs.Sequence.Distinct
import ClauseEngine.Proofs.Sequence.Membership
import ClauseEngine.Proofs.Sequence.Multiplicity
import ClauseEngine.Proofs.Sequence.Sort
import ClauseEngine.Proofs.Value.Basic
import ClauseEngine.Proofs.Value.Equivalence
import ClauseEngine.Proofs.Value.Order
import ClauseEngine.Proofs.Value.Ordered
import ClauseEngine.Proofs.Value.Wire
import ClauseEngine.Quoted
import ClauseEngine.Registry
import ClauseEngine.Value.Access
import ClauseEngine.Value.Basic
import ClauseEngine.Value.Order
import ClauseEngine.Value.Wire
