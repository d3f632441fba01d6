/-
Module: ClauseEngine.Json.Printer
Purpose: The compact text of a JSON value: no blanks, fields in the order of their names, the
  fewest escapes, and numbers with the fewest digits.
Main exports: Json.floatText, Json.quoted, Json.render
-/
import ClauseEngine.Json.Basic
import ClauseEngine.Double.Shortest

namespace ClauseEngine

namespace Json

/-- The decimal exponents that are written positionally. -/
def isPositional (exponent : Int) : Bool := -5 ≤ exponent ∧ exponent ≤ 15

/-- A finite double in the fewest digits that read back. Positional text always has a fraction;
    scientific text signs its exponent and has no empty fraction. -/
def floatText (x : Double) : String :=
  let decimal := x.shortest
  let body :=
    if isPositional decimal.exponent then
      let (whole, fraction) := decimal.positional
      whole ++ '.' :: (if fraction.isEmpty then ['0'] else fraction)
    else
      let mark := if decimal.exponent < 0 then ['e', '-'] else ['e', '+']
      let fraction := decimal.digits.drop 1
      decimal.digits.take 1 ++ (if fraction.isEmpty then [] else '.' :: fraction) ++ mark
        ++ Nat.toDigits 10 decimal.exponent.natAbs
  String.ofList (x.signText ++ body)

/-- A character inside quotation marks. Only the quotation mark, the backslash and the control
    characters are escaped. -/
def escaped (c : Char) : List Char :=
  match c with
  | '"' => ['\\', '"']
  | '\\' => ['\\', '\\']
  | '\n' => ['\\', 'n']
  | '\r' => ['\\', 'r']
  | '\t' => ['\\', 't']
  | '\x08' => ['\\', 'b']
  | '\x0c' => ['\\', 'f']
  | c =>
      if c.toNat < 0x20 then
        ['\\', 'u', '0', '0', Nat.digitChar (c.toNat / 16), Nat.digitChar (c.toNat % 16)]
      else [c]

/-- A string in quotation marks. -/
def quoted (s : String) : String :=
  String.ofList ('"' :: (s.toList.flatMap escaped ++ ['"']))

mutual

/-- The compact text of a value. -/
def render : Json → String
  | .null => "null"
  | .bool true => "true"
  | .bool false => "false"
  | .int z => toString z
  | .float x => floatText x
  | .string s => quoted s
  | .array items => "[" ++ ",".intercalate (renderItems items) ++ "]"
  | .object fields => "\x7b" ++ ",".intercalate (renderFields fields) ++ "\x7d"

/-- The texts of the items of an array. -/
def renderItems : List Json → List String
  | [] => []
  | item :: rest => item.render :: renderItems rest

/-- The texts of the fields of an object. -/
def renderFields : List (String × Json) → List String
  | [] => []
  | (name, value) :: rest => (quoted name ++ ":" ++ value.render) :: renderFields rest

end

end Json

end ClauseEngine
