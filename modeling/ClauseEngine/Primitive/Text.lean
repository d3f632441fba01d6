/-
Module: ClauseEngine.Primitive.Text
Purpose: Operators on strings. Lengths and positions count characters.
Main exports: Text.concat, Text.length, Text.substring, Text.join, Text.occursIn, Text.contains,
  Text.ofValue
-/
import ClauseEngine.Value.Wire

namespace ClauseEngine

namespace Text

def concat (a b : Value) : Result Value := do
  let s ← a.asStr
  let t ← b.asStr
  return .str (s ++ t)

def length (a : Value) : Result Value := do
  return .nat (Int64.ofNat (← a.asStr).length)

/-- The characters from a position on, at most so many; both bounds are cut to the string. -/
def substring (a start count : Value) : Result Value := do
  let s ← a.asStr
  let i ← start.asNat
  let n ← count.asNat
  if i.toInt < 0 || n.toInt < 0 then throw (.mismatch (.substringBounds i n))
  return .str (String.ofList ((s.toList.drop i.toInt.toNat).take n.toInt.toNat))

/-- The strings of a sequence, with a separator between them. -/
def join (separator a : Value) : Result Value := do
  let s ← separator.asStr
  let items ← a.asSeq
  return .str (s.intercalate (← items.mapM Value.asStr))

/-- One list of characters is found in another without a gap. -/
def occursIn (needle : List Char) : List Char → Bool
  | [] => needle.isEmpty
  | c :: rest => needle.isPrefixOf (c :: rest) || occursIn needle rest

def contains (a needle : Value) : Result Value := do
  let s ← a.asStr
  let t ← needle.asStr
  return .bool (occursIn t.toList s.toList)

/-- A string as it is, and any other value by its structural text. -/
def ofValue : Value → Result Value
  | .str s => .ok (.str s)
  | v => .ok (.str v.text)

end Text

end ClauseEngine
