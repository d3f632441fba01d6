/-
Module: ClauseEngine.Value.Wire
Purpose: The wire form of values. Scalars that the text format lacks, and the two sides of a sum,
  travel as objects with a single tagged field; a branded value names its brand and its data; every
  other object is a record. A record with a field whose name could be taken for a tag is wrapped.
Main exports: Value.Tag, Value.encode, Value.decode, Value.text
-/
import ClauseEngine.Value.Access
import ClauseEngine.Double.Rounding

namespace ClauseEngine

namespace Value

/-- The tags that mark an object with a single field. -/
inductive Tag where
  | nat
  | left
  | right
  | dateTime
  | float
  | record
deriving DecidableEq, Repr

namespace Tag

def name : Tag → String
  | .nat => "$nat"
  | .left => "$left"
  | .right => "$right"
  | .dateTime => "$datetime"
  | .float => "$float"
  | .record => "$record"

def all : List Tag := [.nat, .left, .right, .dateTime, .float, .record]

def ofName? (name : String) : Option Tag := all.find? fun tag => tag.name == name

end Tag

/-- The field of an object that names a brand. -/
def classField : String := "$class"

/-- The field of an object that holds the fields of a branded value. -/
def dataField : String := "$data"

/-- An object with a single tagged field. -/
def tagged (tag : Tag) (payload : Json) : Json := .object [(tag.name, payload)]

/-- A field name that could be taken for a tag. -/
def isReserved (name : String) : Bool := name.toList.head? == some '$'

/-- The name of a double that has no number literal. -/
def specialName (x : Double) : String :=
  if x.isNaN then "nan" else if x.isNegative then "-inf" else "inf"

/-- The double with a special name. -/
def special? (name : String) : Option Double :=
  if name = "inf" then some Double.infinity
  else if name = "-inf" then some Double.negInfinity
  else if name = "nan" then some Double.nan
  else none

mutual

/-- The wire form of a value. -/
def encode : Value → Json
  | .unit => .null
  | .bool b => .bool b
  | .nat n => tagged .nat (.int n.toInt)
  | .float x => if x.isFinite then .float x else tagged .float (.string (specialName x))
  | .str s => .string s
  | .dateTime t => tagged .dateTime (.string t.write)
  | .seq items => .array (encodeItems items)
  | .record fields =>
      if fields.any (isReserved ·.1) then tagged .record (.object (encodeFields fields))
      else .object (encodeFields fields)
  | .left payload => tagged .left payload.encode
  | .right payload => tagged .right payload.encode
  | .branded brand fields =>
      .object [(classField, .string brand), (dataField, .object (encodeFields fields))]

/-- The wire forms of the items of a sequence. -/
def encodeItems : List Value → List Json
  | [] => []
  | item :: rest => item.encode :: encodeItems rest

/-- The wire forms of the values of some fields. -/
def encodeFields : List (String × Value) → List (String × Json)
  | [] => []
  | (name, value) :: rest => (name, value.encode) :: encodeFields rest

end

/-- The failure to read a document. -/
def unreadable {α : Type} (error : ReadError) : Result α := .error (.unreadable error)

/-- Read a date-time from its text. -/
def readDateTime (text : String) : Result DateTime :=
  match DateTime.read text with
  | .ok t => .ok t
  | .error error => .error (.badDateTime text error)

def decodeNat (payload : Json) : Result Value :=
  match payload.integer? with
  | some n => .ok (.nat n)
  | none => unreadable (.natTag payload)

def decodeDateTime (payload : Json) : Result Value :=
  match payload with
  | .string text => .dateTime <$> readDateTime text
  | _ => unreadable .dateTimeTag

def decodeSpecial (payload : Json) : Result Value :=
  match payload.string?.bind special? with
  | some x => .ok (.float x)
  | none => unreadable (.floatTag payload)

/-- The brand that a class field names: a string, alone or as the only item of an array. -/
def decodeClass : Json → Result String
  | .string brand => .ok brand
  | .array [.string brand] => .ok brand
  | .array items => unreadable (.classNotSingle (.array items))
  | found => unreadable (.classNotString found)

mutual

/-- The value with a given wire form. -/
def decode : Json → Result Value
  | .null => .ok .unit
  | .bool b => .ok (.bool b)
  | .int z => .ok (.float (Double.ofInt z))
  | .float x => .ok (.float x)
  | .string s => .ok (.str s)
  | .array items => .seq <$> decodeItems items
  | .object fields =>
      match fields.lookup classField with
      | some name => do
          let brand ← decodeClass name
          return .branded brand (← decodeData brand fields)
      | none => decodeObject fields

/-- The value of an object that names no brand. A tag counts only as the single field. -/
def decodeObject : List (String × Json) → Result Value
  | [(name, payload)] =>
      match Tag.ofName? name with
      | some .nat => decodeNat payload
      | some .left => .left <$> decode payload
      | some .right => .right <$> decode payload
      | some .dateTime => decodeDateTime payload
      | some .float => decodeSpecial payload
      | some .record =>
          match payload with
          | .object fields => .record <$> decodeFields fields
          | _ => unreadable .recordTag
      | none => do
          let value ← decode payload
          return .record [(name, value)]
  | fields => .record <$> decodeFields fields

/-- The values of the items of an array. The first error is the answer. -/
def decodeItems : List Json → Result (List Value)
  | [] => .ok []
  | item :: rest => do
      let value ← decode item
      let others ← decodeItems rest
      return value :: others

/-- The values of the fields of an object, in the order of their names. -/
def decodeFields : List (String × Json) → Result (List (String × Value))
  | [] => .ok []
  | (name, payload) :: rest => do
      let value ← decode payload
      let others ← decodeFields rest
      return (name, value) :: others

/-- The fields of a branded value, found under the data field of its object. -/
def decodeData (brand : String) : List (String × Json) → Result (List (String × Value))
  | [] => unreadable (.noData brand)
  | (name, payload) :: rest =>
      if name = dataField then
        match payload with
        | .object fields => decodeFields fields
        | _ => unreadable (.noData brand)
      else decodeData brand rest

end

/-- The structural text of a value: the compact text of its wire form. -/
def text (v : Value) : String := v.encode.render

end Value

end ClauseEngine
