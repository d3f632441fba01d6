/-
Module: ClauseEngine.Bundle
Purpose: The bundle in which the compiled logic of a contract travels: an identifier and a list of
  constructs. Clause and init bodies stay in their text format here. A construct of a kind that is
  not known is skipped, so that newer compilers can add kinds.
Main exports: Provenance, Construct, Bundle, BundleError, BundleError.message, Bundle.read,
  Bundle.edges, Bundle.clauses, Bundle.init, Bundle.errorBrand
-/
import ClauseEngine.Json.Basic

namespace ClauseEngine

/-- Where the compiler found a construct. -/
structure Provenance where
  file : String
  line : Nat
deriving DecidableEq, Repr

namespace Provenance

def text (p : Provenance) : String := s!"{p.file}:{p.line}"

/-- The recorded place of a construct, if it is complete. -/
def read? (construct : Json) : Option Provenance := do
  let place ← construct.get? "provenance"
  let file ← (← place.get? "file").string?
  let line ← (← place.get? "line").natural?
  return ⟨file, line⟩

end Provenance

/-- The declaration of a clause: its name, the brand of the requests it accepts, and its body. -/
structure ClauseDeclaration where
  id : String
  request : String
  body : Json
  provenance : Option Provenance

/-- The declaration of the body that sets up a contract. -/
structure InitDeclaration where
  body : Json
  provenance : Option Provenance

/-- One construct of a bundle. -/
inductive Construct where
  | subtype (sub sup : String)
  | clause (declaration : ClauseDeclaration)
  | init (declaration : InitDeclaration)
  | errorBrand (brand : String)

/-- An identified list of constructs, in declaration order. -/
structure Bundle where
  id : String
  constructs : List Construct

/-- Why a document is no bundle. -/
inductive BundleError where
  | missingField (name : String)
  | missingConstructField (kind id name : String)
  | notAnObject (index : Nat)
deriving DecidableEq, Repr

/-- The wording of a bundle error. -/
def BundleError.message : BundleError → String
  | .missingField name => s!"bundle missing required field: '{name}'"
  | .missingConstructField kind id name => s!"{kind} '{id}': missing '{name}' field"
  | .notAnObject index => s!"invalid bundle: construct #{index} is not an object"

namespace Construct

/-- A string field of a construct. -/
def readString (construct : Json) (kind id name : String) : Except BundleError String :=
  match (construct.get? name).bind Json.string? with
  | some s => .ok s
  | none => .error (.missingConstructField kind id name)

/-- The body of a construct. A null body counts as missing. -/
def readBody (construct : Json) (kind id : String) : Except BundleError Json :=
  match construct.get? "body" with
  | none | some .null => .error (.missingConstructField kind id "body")
  | some body => .ok body

def readSubtype (construct : Json) : Except BundleError Construct := do
  let sub ← readString construct "Subtype" "?" "sub"
  let sup ← readString construct "Subtype" sub "sup"
  return .subtype sub sup

def readClause (construct : Json) : Except BundleError Construct := do
  let id ← readString construct "Clause" "?" "id"
  let request ← readString construct "Clause" id "request"
  let body ← readBody construct "Clause" id
  return .clause ⟨id, request, body, Provenance.read? construct⟩

def readInit (construct : Json) : Except BundleError Construct := do
  let body ← readBody construct "Init" "init"
  return .init ⟨body, Provenance.read? construct⟩

def readErrorBrand (construct : Json) : Except BundleError Construct :=
  .errorBrand <$> readString construct "ErrorBrand" "?" "brand"

/-- The kinds of construct that are known. -/
inductive Kind where
  | subtype
  | clause
  | init
  | errorBrand
deriving DecidableEq, Repr

def Kind.ofName? (name : String) : Option Kind :=
  if name = "Subtype" then some .subtype
  else if name = "Clause" then some .clause
  else if name = "Init" then some .init
  else if name = "ErrorBrand" then some .errorBrand
  else none

/-- Read one construct. The answer is empty for a kind that is not known. -/
def read (index : Nat) (construct : Json) : Except BundleError (Option Construct) :=
  match construct with
  | .object _ =>
      match ((construct.get? "kind").bind Json.string?).bind Kind.ofName? with
      | some .subtype => some <$> readSubtype construct
      | some .clause => some <$> readClause construct
      | some .init => some <$> readInit construct
      | some .errorBrand => some <$> readErrorBrand construct
      | none => .ok none
  | _ => .error (.notAnObject index)

/-- Read constructs in order, counting from `index`. The first bad one decides the error. -/
def readAll (index : Nat) : List Json → Except BundleError (List Construct)
  | [] => .ok []
  | construct :: rest => do
      let first ← read index construct
      let others ← readAll (index + 1) rest
      return first.toList ++ others

def edge? : Construct → Option (String × String)
  | .subtype sub sup => some (sub, sup)
  | _ => none

def clause? : Construct → Option ClauseDeclaration
  | .clause declaration => some declaration
  | _ => none

def init? : Construct → Option InitDeclaration
  | .init declaration => some declaration
  | _ => none

def errorBrand? : Construct → Option String
  | .errorBrand brand => some brand
  | _ => none

end Construct

namespace Bundle

/-- Read a bundle from its document. -/
def read (document : Json) : Except BundleError Bundle := do
  let id ← match (document.get? "id").bind Json.string? with
    | some id => pure id
    | none => throw (.missingField "id")
  let items ← match (document.get? "constructs").bind Json.array? with
    | some items => pure items
    | none => throw (.missingField "constructs")
  return ⟨id, ← Construct.readAll 0 items⟩

/-- The declared subtype edges in declaration order. -/
def edges (b : Bundle) : List (String × String) := b.constructs.filterMap Construct.edge?

/-- The declared clauses in declaration order, which is the order of dispatch. -/
def clauses (b : Bundle) : List ClauseDeclaration := b.constructs.filterMap Construct.clause?

/-- The last init declaration. -/
def init (b : Bundle) : Option InitDeclaration :=
  (b.constructs.filterMap Construct.init?).getLast?

/-- The last declared error brand. -/
def errorBrand (b : Bundle) : Option String :=
  (b.constructs.filterMap Construct.errorBrand?).getLast?

end Bundle

end ClauseEngine
