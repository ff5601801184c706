import Stencil.Data.Literal
import Stencil.Text.Digit

/-!
# Dates and times

A timestamp is a date, possibly with a time of the day, which can have a fraction and a distance
from universal time. What it stands for is a date, or a time on a day to a millionth of a second,
with its distance from universal time if that is given.

Reading the parts and checking that they name a day and a time are two steps: parts in the right
places with a thirteenth month are a timestamp, but one that stands for nothing. A line break may
follow the text.

Two times with a distance are equal if they name one moment; a time without a distance names no
moment, and is equal to none with one.
-/

set_option autoImplicit false

namespace Stencil.Yaml

/-- A distance from universal time. -/
structure Offset where
  minutes : Int
  /-- The distance as it is written in the text. -/
  written : String
deriving DecidableEq, Repr

structure Clock where
  hour : Nat
  minute : Nat
  second : Nat
  /-- The digits after the point. -/
  fraction : List Char := []
  offset : Option Offset := none

structure Timestamp where
  year : Nat
  month : Nat
  day : Nat
  clock : Option Clock := none

/-! ## Reading -/

/-- Between `least` and `most` digits at the start of a text, as many as there are. -/
def readDigits (least most : Nat) (text : List Char) : Option (Nat × List Char) :=
  let digits := (text.take most).takeWhile Char.isDigit
  if digits.length < least then none
  else some (Text.decimalNumber digits, text.drop digits.length)

/-- The rest of a text that starts with a character. -/
def readMark (mark : Char) : List Char → Option (List Char)
  | c :: rest => if c == mark then some rest else none
  | [] => none

def isTimeBlank (c : Char) : Bool := c == ' ' || c == '\t'

/-- The distance from universal time that ends a timestamp. -/
def readOffset (text : List Char) : Option (Option Offset) :=
  let word := text.dropWhile isTimeBlank
  match word with
  | [] => if text.isEmpty then some none else none
  | ['Z'] => some (some ⟨0, "Z"⟩)
  | sign :: rest => do
    guard (sign == '-' || sign == '+')
    let (hours, rest) ← readDigits 1 2 rest
    let minutes ←
      match rest with
      | [] => some 0
      | rest => do
        let (minutes, rest) ← readDigits 2 2 (← readMark ':' rest)
        guard rest.isEmpty
        pure minutes
    let size : Int := (hours * 60 + minutes : Nat)
    return some ⟨if sign == '-' then -size else size, String.ofList word⟩

def readClock (text : List Char) : Option Clock := do
  let (hour, rest) ← readDigits 1 2 text
  let (minute, rest) ← readDigits 2 2 (← readMark ':' rest)
  let (second, rest) ← readDigits 2 2 (← readMark ':' rest)
  let fraction :=
    match rest with
    | '.' :: rest => rest.takeWhile Char.isDigit
    | _ => []
  let rest :=
    match rest with
    | '.' :: rest => rest.dropWhile Char.isDigit
    | rest => rest
  return { hour, minute, second, fraction, offset := ← readOffset rest }

/-- A text without the line break that may end it. -/
def dropLineEnd (text : List Char) : List Char :=
  if text.getLast? == some '\n' then text.dropLast else text

def Timestamp.read? (text : List Char) : Option Timestamp := do
  let (year, rest) ← readDigits 4 4 (dropLineEnd text)
  let (month, rest) ← readDigits 1 2 (← readMark '-' rest)
  let (day, rest) ← readDigits 1 2 (← readMark '-' rest)
  match rest with
  | [] => return { year, month, day }
  | c :: time =>
    guard (c == 'T' || c == 't' || isTimeBlank c)
    let time := if isTimeBlank c then time.dropWhile isTimeBlank else time
    return { year, month, day, clock := some (← readClock time) }

/-- Whether plain text is a timestamp. A date alone is only one with two digits for each part after
the year. -/
def isTimestampText (text : List Char) : Bool :=
  match Timestamp.read? text with
  | some stamp => stamp.clock.isSome || (dropLineEnd text).length = 10
  | none => false

/-! ## What a timestamp stands for -/

/-- A part of a timestamp that is out of its range. -/
inductive TimestampError
  | year (value : Int)
  | month
  | day
  | hour
  | minute
  | second
  /-- A distance from universal time of a day or more. -/
  | offset (minutes : Int)
  /-- A time that rounding puts after the last year. -/
  | outside
deriving DecidableEq, Repr

/-- A span of some minutes, as whole days and the seconds of a day. -/
def spanText (minutes : Int) : String :=
  let days := minutes / 1440
  let seconds := minutes % 1440 * 60
  let parts :=
    (if days = 0 then [] else ["days=" ++ toString days])
      ++ (if seconds = 0 then [] else ["seconds=" ++ toString seconds])
  "datetime.timedelta(" ++ (if parts.isEmpty then "0" else ", ".intercalate parts) ++ ")"

def TimestampError.message : TimestampError → String
  | .year value => "year " ++ toString value ++ " is out of range"
  | .month => "month must be in 1..12"
  | .day => "day is out of range for month"
  | .hour => "hour must be in 0..23"
  | .minute => "minute must be in 0..59"
  | .second => "second must be in 0..59"
  | .offset minutes =>
    "offset must be a timedelta strictly between -timedelta(hours=24) and timedelta(hours=24), not "
      ++ spanText minutes ++ "."
  | .outside => "date value out of range"

def isLeapYear (year : Nat) : Bool := year % 4 = 0 && (year % 100 != 0 || year % 400 = 0)

def daysInMonth (year month : Nat) : Nat :=
  if month = 2 then (if isLeapYear year then 29 else 28)
  else if month = 4 || month = 6 || month = 9 || month = 11 then 30
  else 31

structure Day where
  year : Nat
  month : Nat
  day : Nat
deriving DecidableEq, Repr

def lastYear : Nat := 9999

namespace Day

/-- The day that the parts of a timestamp name. -/
def ofParts (year month day : Nat) : Except TimestampError Day :=
  if year = 0 || lastYear < year then .error (.year year)
  else if month = 0 || 12 < month then .error .month
  else if day = 0 || daysInMonth year month < day then .error .day
  else .ok ⟨year, month, day⟩

/-- The day after, if it is counted. -/
def next? (d : Day) : Option Day :=
  if d.day < daysInMonth d.year d.month then some { d with day := d.day + 1 }
  else if d.month < 12 then some ⟨d.year, d.month + 1, 1⟩
  else if d.year < lastYear then some ⟨d.year + 1, 1, 1⟩
  else none

/-- The number of the day, counted from the first day of the first year. -/
def number (d : Day) : Nat :=
  let years := d.year - 1
  let months := ((List.range (d.month - 1)).map fun month => daysInMonth d.year (month + 1)).foldl (· + ·) 0
  years * 365 + years / 4 - years / 100 + years / 400 + months + d.day

end Day

/-- A number with zeros in front up to a width. -/
def padded (width n : Nat) : String :=
  let digits := toString n
  String.ofList (List.replicate (width - digits.length) '0') ++ digits

def Day.text (d : Day) : String :=
  padded 4 d.year ++ "-" ++ padded 2 d.month ++ "-" ++ padded 2 d.day

def callText (name : String) (arguments : List String) : String :=
  name ++ "(" ++ ", ".intercalate arguments ++ ")"

def Day.toForeign (d : Day) : Foreign where
  sort := "date"
  text := d.text
  quoted := callText "datetime.date" ([d.year, d.month, d.day].map toString)
  identity := d.text

/-- The millionths of a second that the digits of a fraction denote, to the nearest one, which can be
a whole second. -/
def millionths (fraction : List Char) : Nat :=
  let digits := fraction.take 6
  let value := Text.decimalNumber digits * Nat.pow 10 (6 - digits.length)
  match fraction.drop 6 with
  | c :: _ => if '5' ≤ c then value + 1 else value
  | [] => value

structure Moment where
  day : Day
  hour : Nat
  minute : Nat
  second : Nat
  millionth : Nat
  offset : Option Offset := none
deriving DecidableEq, Repr

/-- The distance of a clock from universal time, in hours and minutes. -/
def Offset.text (offset : Offset) : String :=
  let size := offset.minutes.natAbs
  (if offset.minutes < 0 then "-" else "+") ++ padded 2 (size / 60) ++ ":" ++ padded 2 (size % 60)

def Offset.quoted (offset : Offset) : String :=
  callText "datetime.timezone" [spanText offset.minutes, Text.quoted offset.written]

namespace Moment

/-- The time without its distance from universal time. -/
def localText (m : Moment) : String :=
  m.day.text ++ " " ++ padded 2 m.hour ++ ":" ++ padded 2 m.minute ++ ":" ++ padded 2 m.second
    ++ (if m.millionth = 0 then "" else "." ++ padded 6 m.millionth)

def text (m : Moment) : String := m.localText ++ ((m.offset.map Offset.text).getD "")

/-- The parts from the year on, without the zeros that may be left out at the end. -/
def parts (m : Moment) : List Nat :=
  let start := [m.day.year, m.day.month, m.day.day, m.hour, m.minute]
  if m.millionth != 0 then start ++ [m.second, m.millionth]
  else if m.second != 0 then start ++ [m.second]
  else start

def quoted (m : Moment) : String :=
  callText "datetime.datetime"
    (m.parts.map toString ++ (m.offset.map fun offset => "tzinfo=" ++ offset.quoted).toList)

/-- The seconds since the start of the count, in universal time. -/
def instant (m : Moment) (offset : Offset) : Int :=
  ((m.day.number * 24 + m.hour) * 60 + m.minute : Nat) * 60 + m.second - offset.minutes * 60

/-- What tells the time from others: the moment it names, if it names one. -/
def identity (m : Moment) : String :=
  match m.offset with
  | some offset => toString (m.instant offset) ++ " " ++ toString m.millionth
  | none => m.localText

def toForeign (m : Moment) : Foreign := ⟨"datetime", m.text, m.quoted, m.identity, true⟩

def later (m : Moment) : Except TimestampError Moment :=
  if m.second < 59 then .ok { m with second := m.second + 1 }
  else if m.minute < 59 then .ok { m with minute := m.minute + 1, second := 0 }
  else if m.hour < 23 then .ok { m with hour := m.hour + 1, minute := 0, second := 0 }
  else
    match m.day.next? with
    | some day => .ok { m with day := day, hour := 0, minute := 0, second := 0 }
    | none => .error .outside

end Moment

/-- The date or the time that a timestamp stands for. The distance from universal time is checked
first. -/
def Timestamp.toForeign (stamp : Timestamp) : Except TimestampError Foreign := do
  match stamp.clock with
  | none => return (← Day.ofParts stamp.year stamp.month stamp.day).toForeign
  | some clock =>
    if let some offset := clock.offset then
      if 1440 ≤ offset.minutes.natAbs then throw (.offset offset.minutes)
    let day ← Day.ofParts stamp.year stamp.month stamp.day
    if 23 < clock.hour then throw .hour
    if 59 < clock.minute then throw .minute
    if 59 < clock.second then throw .second
    let fraction := millionths clock.fraction
    let written (fraction : Nat) : Moment :=
      ⟨day, clock.hour, clock.minute, clock.second, fraction, clock.offset⟩
    if 999999 < fraction then return (← (written 0).later).toForeign
    else return (written fraction).toForeign

end Stencil.Yaml
