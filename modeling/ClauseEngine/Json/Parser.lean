/-
Module: ClauseEngine.Json.Parser
Purpose: JSON values from text. Bare words are read by the grammar of number literals; the nesting
  of arrays and objects is followed with an explicit stack, one token at a time.
Main exports: Json.ofWord?, Json.parse?
-/
import ClauseEngine.Json.Token
import ClauseEngine.Double.Rounding

namespace ClauseEngine

namespace Json

/-- The pieces of a number literal. -/
structure Literal where
  negative : Bool
  whole : List Char
  fraction : Option (List Char)
  exponent : Option (Bool × List Char)

namespace Literal

def natOfDigits (digits : List Char) : Nat :=
  digits.foldl (fun value c => value * 10 + (c.toNat - '0'.toNat)) 0

/-- Split a word into the pieces of a number literal: a sign, a whole part without idle zeros, a
    fraction and an exponent, each with at least one digit. -/
def ofWord? (word : List Char) : Option Literal := do
  let (negative, word) := match word with
    | '-' :: rest => (true, rest)
    | rest => (false, rest)
  let whole := word.takeWhile Char.isDigit
  guard (!whole.isEmpty && (whole.length = 1 || whole.head? != some '0'))
  let (fraction, word) ← match word.dropWhile Char.isDigit with
    | '.' :: rest =>
        let digits := rest.takeWhile Char.isDigit
        if digits.isEmpty then none else some (some digits, rest.dropWhile Char.isDigit)
    | rest => some (none, rest)
  match word with
  | [] => some ⟨negative, whole, fraction, none⟩
  | mark :: rest =>
      guard (mark = 'e' || mark = 'E')
      let (negativeExponent, digits) := match rest with
        | '-' :: digits => (true, digits)
        | '+' :: digits => (false, digits)
        | digits => (false, digits)
      guard (!digits.isEmpty && digits.all Char.isDigit)
      some ⟨negative, whole, fraction, some (negativeExponent, digits)⟩

/-- The exact decimal, rounded to the nearest double. -/
def toDouble (l : Literal) : Double :=
  let fraction := l.fraction.getD []
  let power : Int := match l.exponent with
    | some (true, digits) => -(natOfDigits digits : Int)
    | some (false, digits) => natOfDigits digits
    | none => 0
  Double.ofDecimal l.negative (natOfDigits (l.whole ++ fraction)) (power - fraction.length)

/-- A literal without fraction and exponent is an integer as long as a 64-bit word holds it, save
    that a negative zero keeps its sign as a double. A literal too large for a double is none. -/
def toJson? (l : Literal) : Option Json :=
  let plain := l.fraction.isNone && l.exponent.isNone
  let magnitude := natOfDigits l.whole
  if plain && !l.negative && magnitude < naturalBound then some (.int magnitude)
  else if plain && l.negative && 0 < magnitude && Integer.Fits (-magnitude) then
    some (.int (-magnitude))
  else
    let x := l.toDouble
    if x.isFinite then some (.float x) else none

end Literal

/-- The value of a bare word. -/
def ofWord? (word : List Char) : Option Json :=
  if word = ['n', 'u', 'l', 'l'] then some .null
  else if word = ['t', 'r', 'u', 'e'] then some (.bool true)
  else if word = ['f', 'a', 'l', 's', 'e'] then some (.bool false)
  else (Literal.ofWord? word).bind Literal.toJson?

/-- A container that is still open. Items are held in reverse, fields already in order. -/
inductive Frame where
  | array (items : List Json)
  | object (fields : List (String × Json)) (name : String)

/-- What may come next, with the containers around it, innermost first. -/
inductive Expecting where
  | value (stack : List Frame)
  | firstItem (stack : List Frame)
  | firstName (stack : List Frame)
  | nextName (fields : List (String × Json)) (stack : List Frame)
  | colon (fields : List (String × Json)) (name : String) (stack : List Frame)
  | continuation (done : Json) (stack : List Frame)

namespace Expecting

/-- The start of a value. A container opens only below the nesting limit. -/
def begin? (limit : Nat) (stack : List Frame) : Token → Option Expecting
  | .mark c =>
      if stack.length < limit then
        if c = '[' then some (.firstItem stack)
        else if c = '\x7b' then some (.firstName stack)
        else none
      else none
  | .text s => some (.continuation (.string s) stack)
  | .word chars => (ofWord? chars).map (.continuation · stack)

/-- One token read. Of two fields with one name the later one is kept. -/
def step? (limit : Nat) (state : Expecting) (token : Token) : Option Expecting :=
  match state with
  | .value stack => begin? limit stack token
  | .firstItem stack =>
      if token = .mark ']' then some (.continuation (.array []) stack)
      else begin? limit (.array [] :: stack) token
  | .firstName stack =>
      match token with
      | .mark c => if c = '\x7d' then some (.continuation (.object []) stack) else none
      | .text s => some (.colon [] s stack)
      | .word _ => none
  | .nextName fields stack =>
      match token with
      | .text s => some (.colon fields s stack)
      | _ => none
  | .colon fields name stack =>
      if token = .mark ':' then some (.value (.object fields name :: stack)) else none
  | .continuation done (.array items :: stack) =>
      if token = .mark ',' then some (.value (.array (done :: items) :: stack))
      else if token = .mark ']' then
        some (.continuation (.array (done :: items).reverse) stack)
      else none
  | .continuation done (.object fields name :: stack) =>
      let fields := Fields.insert name done fields
      if token = .mark ',' then some (.nextName fields stack)
      else if token = .mark '\x7d' then some (.continuation (.object fields) stack)
      else none
  | .continuation _ [] => none

end Expecting

/-- The value that a text denotes, if it is valid JSON whose containers nest at most `limit`
    deep. -/
def parse? (limit : Nat) (text : String) : Option Json := do
  let tokens ← Token.scan? text
  match ← tokens.foldlM (Expecting.step? limit) (.value []) with
  | .continuation done [] => some done
  | _ => none

end Json

end ClauseEngine
