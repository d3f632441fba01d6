/-
Module: ClauseEngine.Contract
Purpose: The logic of a contract with its bodies read: clauses in order of dispatch, the body that
  sets up the contract, the declared brand edges and the declared error brand.
Main exports: Clause, Contract, Contract.ofBundle, Contract.read
-/
import ClauseEngine.Expr.Reader

namespace ClauseEngine

/-- A clause: the brand of the requests it accepts and the body that answers them. -/
structure Clause where
  id : String
  request : String
  body : Expr

/-- The logic of a contract. -/
structure Contract where
  id : String
  clauses : List Clause
  init : Option Expr
  edges : List (String × String)
  errorBrand : Option String

namespace Contract

/-- Say in which construct a body could not be read. Other errors stay as they are. -/
def inConstruct {α : Type} (kind id : String) (provenance : Option Provenance) :
    Result α → Result α
  | .error (.unreadable error) => .error (.unreadable (.inConstruct kind id provenance error))
  | result => result

def readClause (declaration : ClauseDeclaration) : Result Clause := do
  let body ← inConstruct "Clause" declaration.id declaration.provenance (Expr.read declaration.body)
  return ⟨declaration.id, declaration.request, body⟩

def readInit (declaration : InitDeclaration) : Result Expr :=
  inConstruct "Init" "init" declaration.provenance (Expr.read declaration.body)

/-- Read the bodies of a bundle: all clauses first, then the init body that counts. -/
def ofBundle (bundle : Bundle) : Result Contract := do
  let clauses ← bundle.clauses.mapM readClause
  let init ← bundle.init.mapM readInit
  return ⟨bundle.id, clauses, init, bundle.edges, bundle.errorBrand⟩

/-- Read a contract from the document of its bundle. -/
def read (document : Json) : Result Contract :=
  match Bundle.read document with
  | .ok bundle => ofBundle bundle
  | .error error => .error (.unreadable (.bundle error))

end Contract

end ClauseEngine
