/-
Module: ClauseEngine.DateTime.Text
Purpose: The written forms of date-times. Three forms are read: a full timestamp with an offset, a
  bare date and a local date and time, the last two at universal time. One form is written, with a
  wider one for the years before the year 0, which a timestamp cannot express.
Main exports: DateTime.TextError, DateTime.TextError.reason, DateTime.read, DateTime.write
-/
import ClauseEngine.DateTime.Basic

namespace ClauseEngine

namespace DateTime

/-- The parts of a written date and time. -/
inductive Component where
  | year
  | month
  | day
  | hour
  | minute
  | second
deriving DecidableEq, Repr

namespace Component

def name : Component → String
  | .year => "year"
  | .month => "month"
  | .day => "day"
  | .hour => "hour"
  | .minute => "minute"
  | .second => "second"

/-- The values that a two-digit part may have on its own. A second may be a leap second. -/
def admits : Component → Nat → Bool
  | .year, _ => true
  | .month, n => 1 ≤ n && n ≤ 12
  | .day, n => 1 ≤ n && n ≤ 31
  | .hour, n => n ≤ 23
  | .minute, n => n ≤ 59
  | .second, n => n ≤ 60

end Component

/-- Why a text is no date-time. -/
inductive TextError where
  | component (part : Component)
  | literal
  | trailing
  | outOfRange (part : Component)
deriving DecidableEq, Repr

/-- The wording of a reason. -/
def TextError.reason : TextError → String
  | .component part => s!"the '{part.name}' component could not be parsed"
  | .literal => "a character literal was not valid"
  | .trailing => "unexpected trailing characters; the end of input was expected"
  | .outOfRange part => s!"{part.name} was not in range"

/-- A reader of the front of a text. -/
abbrev Scan (α : Type) : Type := StateT (List Char) (Except TextError) α

namespace Scan

/-- The number written by a list of digits. -/
def valueOf (digits : List Char) : Nat :=
  digits.foldl (fun value c => value * 10 + (c.toNat - '0'.toNat)) 0

/-- Exactly so many digits. -/
def digits (count : Nat) (part : Component) : Scan Nat := fun cs =>
  let front := cs.take count
  if front.length = count && front.all Char.isDigit then .ok (valueOf front, cs.drop count)
  else .error (.component part)

/-- A two-digit part in its own range. -/
def pair (part : Component) : Scan Nat := do
  let n ← digits 2 part
  if part.admits n then return n else throw (.component part)

/-- A given character. -/
def literal (c : Char) : Scan Unit
  | head :: rest => if head = c then .ok ((), rest) else .error .literal
  | [] => .error .literal

/-- Any character that takes a single byte. -/
def separator : Scan Unit
  | head :: rest => if head.toNat < 0x80 then .ok ((), rest) else .error .literal
  | [] => .error .literal

/-- The end of the text. -/
def finish : Scan Unit
  | [] => .ok ((), [])
  | _ :: _ => .error .trailing

/-- A sign, where a missing one counts as a plus. The answer says whether it is a minus. -/
def sign : Scan Bool
  | '+' :: rest => .ok (false, rest)
  | '-' :: rest => .ok (true, rest)
  | cs => .ok (false, cs)

/-- A year of four digits with an optional sign. -/
def signedYear : Scan Int := do
  let negative ← sign
  let n ← digits 4 .year
  return if negative then -(n : Int) else n

/-- The month and the day after the year, each led by a dash. -/
def monthAndDay (year : Int) : Scan Date := do
  literal '-'
  let month ← pair .month
  literal '-'
  let day ← pair .day
  return ⟨year, month, day⟩

/-- Hour, minute and second, divided by colons, as the second of the day and the last part. -/
def timeOfDay : Scan (Nat × Nat) := do
  let hour ← pair .hour
  literal ':'
  let minute ← pair .minute
  literal ':'
  let second ← pair .second
  return (hour * 3600 + minute * 60, second)

/-- An optional fraction of a second in nanoseconds. Digits beyond the ninth are dropped. -/
def fraction : Scan Nat
  | '.' :: rest =>
      let digits := rest.takeWhile Char.isDigit
      if digits.isEmpty then .error (.component .second)
      else .ok (valueOf (digits.take 9 ++ List.replicate (9 - digits.length) '0'),
        rest.dropWhile Char.isDigit)
  | cs => .ok (0, cs)

/-- The offset of a timestamp in minutes. -/
def zone : Scan Int
  | 'Z' :: rest => .ok (0, rest)
  | 'z' :: rest => .ok (0, rest)
  | mark :: rest =>
      if mark = '+' || mark = '-' then
        (do
          let hour ← pair .hour
          literal ':'
          let minute ← pair .minute
          let total : Int := hour * 60 + minute
          return if mark = '-' then -total else total : Scan Int) rest
      else .error .literal
  | [] => .error .literal

end Scan

/-- The date-time of local calendar readings. -/
def ofReadings? (date : Date) (secondOfDay nano : Nat) (offset : Int) : Option DateTime :=
  ofClock? ((date.dayNumber * Clock.secondsPerDay + secondOfDay) * Clock.nanosPerSecond + nano)
    offset

/-- The last nanosecond of a month at universal time, where a leap second may be inserted. -/
def endsMonth (t : DateTime) : Bool :=
  t.instant % Clock.nanosPerDay = Clock.nanosPerDay - 1
    && (Date.ofDayNumber (t.instant / Clock.nanosPerDay)).endsMonth

/-- A range error unless the readings give a date-time. -/
def require (part : Component) : Option DateTime → Except TextError DateTime
  | some t => .ok t
  | none => .error (.outOfRange part)

/-- A full timestamp: an unsigned year, any single byte before the time, an optional fraction and
    an offset. A leap second is read as the last nanosecond before it. -/
def readTimestamp (text : List Char) : Except TextError DateTime := do
  let scan : Scan (Date × Nat × Nat × Nat × Int) := do
    let year ← Scan.digits 4 .year
    let date ← Scan.monthAndDay year
    Scan.separator
    let (minutes, second) ← Scan.timeOfDay
    let nano ← Scan.fraction
    let offset ← Scan.zone
    Scan.finish
    return (date, minutes, second, nano, offset)
  let ((date, minutes, second, nano, offset), _) ← scan text
  if !date.isValid then throw (.outOfRange .day)
  if second = 60 then
    let t ← require .day (ofReadings? date (minutes + 59) 999999999 offset)
    if t.endsMonth then return t else throw (.outOfRange .second)
  require .day (ofReadings? date (minutes + second) nano offset)

/-- A bare date, taken as its midnight at universal time. -/
def readDate (text : List Char) : Except TextError DateTime := do
  let scan : Scan Date := do
    let year ← Scan.signedYear
    let date ← Scan.monthAndDay year
    Scan.finish
    return date
  let (date, _) ← scan text
  if !date.isValid then throw (.outOfRange .day)
  require .day (ofReadings? date 0 0 0)

/-- A local date and time, taken at universal time. -/
def readLocal (text : List Char) : Except TextError DateTime := do
  let scan : Scan (Date × Nat × Nat) := do
    let year ← Scan.signedYear
    let date ← Scan.monthAndDay year
    Scan.literal 'T'
    let (minutes, second) ← Scan.timeOfDay
    Scan.finish
    return (date, minutes, second)
  let ((date, minutes, second), _) ← scan text
  if !date.isValid then throw (.outOfRange .day)
  if second = 60 then throw (.outOfRange .second)
  require .day (ofReadings? date (minutes + second) 0 0)

/-- Read the first of the three forms that fits. If none does, the reason is that of the last. -/
def read (text : String) : Except TextError DateTime :=
  let cs := text.toList
  match readTimestamp cs with
  | .ok t => .ok t
  | .error _ =>
      match readDate cs with
      | .ok t => .ok t
      | .error _ => readLocal cs

/-- The last digits of a number, as many as asked for, with leading zeros. -/
def padded : Nat → Nat → List Char
  | 0, _ => []
  | width + 1, n => padded width (n / 10) ++ [Nat.digitChar (n % 10)]

/-- The digits of a fraction of a second, without trailing zeros. -/
def fractionDigits (nano : Nat) : List Char :=
  ((padded 9 nano).reverse.dropWhile (· == '0')).reverse

/-- Hours and minutes of an offset, after its sign. -/
def writeOffset (offset : Int) : List Char :=
  (if offset < 0 then '-' else '+') :: padded 2 (offset.natAbs / 60) ++
    ':' :: padded 2 (offset.natAbs % 60)

/-- The date as year, month and day. -/
def writeDate (d : Date) : List Char :=
  padded 4 d.year.natAbs ++ '-' :: padded 2 d.month ++ '-' :: padded 2 d.day

/-- The timestamp of a date-time in the years 0 to 9999. -/
def writeTimestamp (t : DateTime) : List Char :=
  let fraction := fractionDigits t.nano
  writeDate t.date ++ 'T' :: padded 2 t.hour ++ ':' :: padded 2 t.minute ++ ':' ::
    padded 2 t.second ++ (if fraction.isEmpty then [] else '.' :: fraction) ++
    (if t.offset = 0 then ['Z'] else writeOffset t.offset)

/-- The wider form for the years before the year 0. -/
def writeExtended (t : DateTime) : List Char :=
  let fraction := fractionDigits t.nano
  '-' :: writeDate t.date ++ ' ' :: Nat.toDigits 10 t.hour ++ ':' :: padded 2 t.minute ++ ':' ::
    padded 2 t.second ++ '.' :: (if fraction.isEmpty then ['0'] else fraction) ++
    ' ' :: writeOffset t.offset ++ [':', '0', '0']

/-- The written form of a date-time. -/
def write (t : DateTime) : String :=
  String.ofList (if 0 ≤ t.date.year then writeTimestamp t else writeExtended t)

end DateTime

end ClauseEngine
