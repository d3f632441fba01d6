/-
Module: ClauseEngine.Json.Basic
Purpose: Values of the JSON text format. A number keeps the way it was written: a whole number is
  an exact integer, every other literal is a double. The parts of a value come with the proof that
  they are smaller, so that readers can recurse through them.
Main exports: Json, Json.get?, Json.string?, Json.integer?, Json.natural?, Json.size, Json.Part,
  Json.part?, Json.parts?, Json.namedParts?
-/
import ClauseEngine.Double.Basic
import ClauseEngine.Fields
import ClauseEngine.Integer

namespace ClauseEngine

/-- A JSON value. The fields of an object ascend by name. -/
inductive Json where
  | null
  | bool (value : Bool)
  | int (value : Int)
  | float (value : Double)
  | string (value : String)
  | array (items : List Json)
  | object (fields : List (String × Json))
deriving Repr, Inhabited

namespace Json

/-- The value under a name. Only an object has any. -/
def get? (name : String) : Json → Option Json
  | .object fields => fields.lookup name
  | _ => none

def string? : Json → Option String
  | .string s => some s
  | _ => none

def array? : Json → Option (List Json)
  | .array items => some items
  | _ => none

/-- A whole number that a signed 64-bit word holds. -/
def integer? : Json → Option Int64
  | .int z => Integer.ofInt? z
  | _ => none

/-- The least natural number that an unsigned 64-bit word does not hold. -/
def naturalBound : Nat := 18446744073709551616

/-- A whole number that an unsigned 64-bit word holds. -/
def natural? : Json → Option Nat
  | .int z => if 0 ≤ z ∧ z < naturalBound then some z.toNat else none
  | _ => none

mutual

/-- The number of nodes of a value. -/
def size : Json → Nat
  | .array items => 1 + sizeOfItems items
  | .object fields => 1 + sizeOfFields fields
  | _ => 1

/-- The number of nodes of a list of values. -/
def sizeOfItems : List Json → Nat
  | [] => 0
  | item :: rest => item.size + sizeOfItems rest

/-- The number of nodes of the values of some fields. -/
def sizeOfFields : List (String × Json) → Nat
  | [] => 0
  | (_, value) :: rest => value.size + sizeOfFields rest

end

theorem size_le_of_mem {item : Json} : ∀ {items : List Json}, item ∈ items →
    item.size ≤ sizeOfItems items
  | [], h => by simp at h
  | head :: rest, h => by
      rcases List.mem_cons.1 h with rfl | h
      · simp [sizeOfItems]
      · have := size_le_of_mem h
        simp [sizeOfItems]
        omega

theorem size_le_of_field_mem {field : String × Json} : ∀ {fields : List (String × Json)},
    field ∈ fields → field.2.size ≤ sizeOfFields fields
  | [], h => by simp at h
  | head :: rest, h => by
      rcases List.mem_cons.1 h with rfl | h
      · simp [sizeOfFields]
      · have := size_le_of_field_mem h
        simp [sizeOfFields]
        omega

theorem size_le_of_lookup {name : String} {value : Json} : ∀ {fields : List (String × Json)},
    fields.lookup name = some value → value.size ≤ sizeOfFields fields
  | [], h => by simp at h
  | (key, head) :: rest, h => by
      rw [List.lookup_cons] at h
      split at h
      · cases h
        simp [sizeOfFields]
      · have := size_le_of_lookup h
        simp [sizeOfFields]
        omega

theorem size_lt_of_get? {j value : Json} {name : String} (h : j.get? name = some value) :
    value.size < j.size := by
  cases j <;> simp [get?] at h
  have := size_le_of_lookup h
  simp [size]
  omega

/-- A value inside `j`, at whatever depth: all that matters is that it is smaller. -/
abbrev Part (j : Json) : Type := { part : Json // part.size < j.size }

/-- The value under a name, as a part. -/
def part? (j : Json) (name : String) : Option j.Part :=
  match h : j.get? name with
  | some value => some ⟨value, size_lt_of_get? h⟩
  | none => none

/-- The items of an array, as parts. -/
def parts? : (j : Json) → Option (List j.Part)
  | .array items => some (items.attach.map fun item =>
      ⟨item.1, by have := size_le_of_mem item.2; simp [size]; omega⟩)
  | _ => none

/-- The fields of an object, with their values as parts. -/
def namedParts? : (j : Json) → Option (List (String × j.Part))
  | .object fields => some (fields.attach.map fun field =>
      (field.1.1, ⟨field.1.2, by have := size_le_of_field_mem field.2; simp [size]; omega⟩))
  | _ => none

end Json

end ClauseEngine
