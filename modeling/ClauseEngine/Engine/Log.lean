/-
Module: ClauseEngine.Engine.Log
Purpose: What an engine records while it works: the phases a call moves through, and a warning for
  a failure that is no error value. Entries are data and are worded at the end.
Main exports: Phase, LogEntry, LogEntry.text, Run, Run.after
-/
import ClauseEngine.Value.Wire

namespace ClauseEngine

/-- The phases of a call. -/
inductive Phase where
  | initial
  | dispatching
  | evaluating
  | succeeded
  | failed
deriving DecidableEq, Repr

def Phase.name : Phase → String
  | .initial => "Initial"
  | .dispatching => "Dispatching"
  | .evaluating => "Evaluating"
  | .succeeded => "Succeeded"
  | .failed => "Failed"

/-- A log entry of the contract named first. -/
inductive LogEntry where
  /-- A contract was loaded. -/
  | loaded (contract : String) (clauses brands : Nat)
  /-- A call moved from one phase to the next, possibly into a clause. -/
  | moved (contract : String) (source target : Phase) (clause : Option String)
  /-- A clause failed with a value that is no error value. -/
  | unshaped (contract clause : String) (value : Value)

/-- The line of an entry, led by its level. -/
def LogEntry.text : LogEntry → String
  | .loaded contract clauses brands =>
      s!"DEBUG loaded contract '{contract}': {clauses} clause(s), {brands} branded subtype(s)"
  | .moved contract source target clause =>
      let suffix := match clause with
        | some id => s!": clause '{id}'"
        | none => ""
      s!"DEBUG [{contract}] {source.name} -> {target.name}{suffix}"
  | .unshaped contract clause value =>
      s!"WARN [{contract}] clause '{clause}' failed with unshaped value {value.text}"

/-- The result of a call together with what was recorded on the way. -/
structure Run (α : Type) where
  log : List LogEntry
  result : Result α

namespace Run

variable {α : Type}

/-- A call that ends at once with an error. -/
def fail (error : EvalError) : Run α := ⟨[], .error error⟩

/-- The rest of a call after some entries. -/
def after (entries : List LogEntry) (run : Run α) : Run α := ⟨entries ++ run.log, run.result⟩

end Run

end ClauseEngine
