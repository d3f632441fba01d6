/-
Module: ClauseEngine.Fields
Purpose: Named fields as association lists in ascending order of their names. Objects of the text
  format and records of the contract language both store their fields this way, so that two
  collections with the same content are the same list.
Main exports: Fields.insert, Fields.overlay, Fields.ofList, Fields.erase, Fields.Ordered
-/
namespace ClauseEngine

namespace Fields

variable {α : Type}

/-- Store a value under a name. An earlier value of that name is replaced. -/
def insert (name : String) (value : α) : List (String × α) → List (String × α)
  | [] => [(name, value)]
  | (key, old) :: rest =>
      if name < key then (name, value) :: (key, old) :: rest
      else if name = key then (name, value) :: rest
      else (key, old) :: insert name value rest

/-- Store every field of the second collection in the first, so that the second one wins. -/
def overlay (base extra : List (String × α)) : List (String × α) :=
  extra.foldl (fun fields field => insert field.1 field.2 fields) base

/-- The fields of a list in any order. Of two values with one name the later one is kept. -/
def ofList (fields : List (String × α)) : List (String × α) := overlay [] fields

/-- Remove the field of a name. -/
def erase (name : String) (fields : List (String × α)) : List (String × α) :=
  fields.filter fun field => field.1 != name

/-- The names ascend strictly, hence none occurs twice. -/
def Ordered (fields : List (String × α)) : Prop := fields.Pairwise fun a b => a.1 < b.1

end Fields

end ClauseEngine
