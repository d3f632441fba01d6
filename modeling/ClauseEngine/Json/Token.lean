/-
Module: ClauseEngine.Json.Token
Purpose: The tokens of JSON text. A small machine reads the text one character at a time, so the
  scan is a recursion on the text itself.
Main exports: Json.Token, Json.Token.scan?
-/
import ClauseEngine.Json.Basic

namespace ClauseEngine

namespace Json

/-- A token: one of the six marks, a string without its quotation marks, or a bare word such as a
    number or `null`. -/
inductive Token where
  | mark (c : Char)
  | text (s : String)
  | word (chars : List Char)
deriving DecidableEq, Repr

namespace Token

/-- Where the scan stands between two characters. Characters read so far are held in reverse. -/
inductive Mode where
  /-- Between tokens. -/
  | outside
  /-- Inside a bare word. -/
  | bare (read : List Char)
  /-- Inside a string. -/
  | inside (read : List Char)
  /-- After a backslash. -/
  | escape (read : List Char)
  /-- Inside a four-digit code, after a first surrogate if there is one. -/
  | code (read : List Char) (first : Option Nat) (value : Nat) (missing : Nat)
  /-- After a first surrogate: the backslash of the second one is due. -/
  | surrogate (read : List Char) (first : Nat)
  /-- After that backslash: its letter is due. -/
  | surrogateEscape (read : List Char) (first : Nat)

def isMark (c : Char) : Bool :=
  c = '[' || c = ']' || c = '\x7b' || c = '\x7d' || c = ',' || c = ':'

def isBlank (c : Char) : Bool := c = ' ' || c = '\n' || c = '\t' || c = '\r'

def hexValue? (c : Char) : Option Nat :=
  if '0' ≤ c ∧ c ≤ '9' then some (c.toNat - '0'.toNat)
  else if 'a' ≤ c ∧ c ≤ 'f' then some (c.toNat - 'a'.toNat + 10)
  else if 'A' ≤ c ∧ c ≤ 'F' then some (c.toNat - 'A'.toNat + 10)
  else none

/-- The character of a one-letter escape. -/
def shortEscape? : Char → Option Char
  | '"' => some '"'
  | '\\' => some '\\'
  | '/' => some '/'
  | 'b' => some '\x08'
  | 'f' => some '\x0c'
  | 'n' => some '\n'
  | 'r' => some '\r'
  | 't' => some '\t'
  | _ => none

/-- The mode after a complete four-digit code. Surrogates are valid in pairs only. -/
def finishCode? (read : List Char) (first : Option Nat) (value : Nat) : Option Mode :=
  let isFirst := 0xd800 ≤ value && value < 0xdc00
  let isSecond := 0xdc00 ≤ value && value < 0xe000
  match first with
  | none =>
      if isFirst then some (.surrogate read value)
      else if isSecond then none
      else some (.inside (Char.ofNat value :: read))
  | some high =>
      if isSecond then
        some (.inside (Char.ofNat (0x10000 + (high - 0xd800) * 0x400 + (value - 0xdc00)) :: read))
      else none

/-- One character read between tokens: the next mode, and the token it completes. -/
def stepOutside (c : Char) : Mode × List Token :=
  if isBlank c then (.outside, [])
  else if isMark c then (.outside, [.mark c])
  else if c = '"' then (.inside [], [])
  else (.bare [c], [])

/-- One character read: the next mode and the tokens completed, or nothing if no text continues
    this way. -/
def step? (mode : Mode) (c : Char) : Option (Mode × List Token) :=
  match mode with
  | .outside => some (stepOutside c)
  | .bare read =>
      if isBlank c || isMark c || c = '"' then
        let (next, completed) := stepOutside c
        some (next, .word read.reverse :: completed)
      else some (.bare (c :: read), [])
  | .inside read =>
      if c = '"' then some (.outside, [.text (String.ofList read.reverse)])
      else if c = '\\' then some (.escape read, [])
      else if c.toNat < 0x20 then none
      else some (.inside (c :: read), [])
  | .escape read =>
      if c = 'u' then some (.code read none 0 4, [])
      else (shortEscape? c).map fun plain => (.inside (plain :: read), [])
  | .code read first value missing => do
      let value := value * 16 + (← hexValue? c)
      let next ← if missing ≤ 1 then finishCode? read first value
        else some (.code read first value (missing - 1))
      return (next, [])
  | .surrogate read first => if c = '\\' then some (.surrogateEscape read first, []) else none
  | .surrogateEscape read first => if c = 'u' then some (.code read (some first) 0 4, []) else none

/-- The scan from a mode on. Tokens found so far are held in reverse. -/
def scanFrom? (mode : Mode) (found : List Token) : List Char → Option (List Token)
  | [] =>
      match mode with
      | .outside => some found.reverse
      | .bare read => some (Token.word read.reverse :: found).reverse
      | _ => none
  | c :: rest =>
      match step? mode c with
      | some (next, completed) => scanFrom? next (completed.reverse ++ found) rest
      | none => none

/-- The tokens of a text, if it has no broken string. -/
def scan? (text : String) : Option (List Token) := scanFrom? .outside [] text.toList

end Token

end Json

end ClauseEngine
