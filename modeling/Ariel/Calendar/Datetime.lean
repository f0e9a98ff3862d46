import Ariel.Text.Blank
import Ariel.Text.Numeral

/-!
# Datetimes

A datetime is written `year-month-day hour:minute:second`, or without the seconds. Blanks may stand
before each number, and the gap between date and time is any run of blanks, also none. The year has
up to four digits, or any number of digits after a sign; every other number has one or two digits.
The date must exist in the Gregorian calendar, which runs backwards from its adoption without a
break, and a minute may have a sixty-first second.
-/

namespace Ariel.Calendar

open Ariel.Text

/-- A point in time as it is written, with second zero when the text gives none. -/
structure Datetime where
  year : Int
  month : Nat
  day : Nat
  hour : Nat
  minute : Nat
  second : Nat
  deriving DecidableEq, Repr

/-- Whether a year has a twenty-ninth of February. -/
def isLeapYear (year : Int) : Bool :=
  year % 4 == 0 && (year % 100 != 0 || year % 400 == 0)

/-- The number of days in a month, zero for a number that names no month. -/
def daysInMonth (year : Int) (month : Nat) : Nat :=
  match month with
  | 1 | 3 | 5 | 7 | 8 | 10 | 12 => 31
  | 4 | 6 | 9 | 11 => 30
  | 2 => if isLeapYear year then 29 else 28
  | _ => 0

/-- Whether the numbers name a day of the supported years and a second of that day. -/
def Datetime.inCalendar (d : Datetime) : Bool :=
  -262143 ≤ d.year && d.year ≤ 262142 && 1 ≤ d.day && d.day ≤ daysInMonth d.year d.month &&
    d.hour ≤ 23 && d.minute ≤ 59 && d.second ≤ 60

/-- Take a non-empty run of ASCII digits from the front of a text. -/
def digits? (cs : List Char) : Option (Nat × List Char) :=
  match cs.takeWhile Char.isDigit with
  | [] => none
  | run => some (digitsValue run, cs.dropWhile Char.isDigit)

/-- Take at least one ASCII digit and at most `most` of them from the front of a text. -/
def fewDigits? (most : Nat) (cs : List Char) : Option (Nat × List Char) :=
  match (cs.take most).takeWhile Char.isDigit with
  | [] => none
  | run => some (digitsValue run, cs.drop run.length)

/-- Take a year: blanks, then up to four digits, or a sign and any number of digits. -/
def year? (cs : List Char) : Option (Int × List Char) :=
  match dropBlanks cs with
  | '-' :: rest => (digits? rest).map fun (n, rest) => (-(n : Int), rest)
  | '+' :: rest => (digits? rest).map fun (n, rest) => ((n : Int), rest)
  | rest => (fewDigits? 4 rest).map fun (n, rest) => ((n : Int), rest)

/-- Take any other part of a datetime: blanks, then one or two digits. -/
def part? (cs : List Char) : Option (Nat × List Char) :=
  fewDigits? 2 (dropBlanks cs)

/-- Take one given character from the front of a text. -/
def mark? (mark : Char) : List Char → Option (List Char)
  | [] => none
  | c :: cs => if c = mark then some cs else none

/-- Read the written numbers of a datetime, with its seconds or without, and nothing after them. -/
def numbers? (seconds : Bool) (cs : List Char) : Option Datetime := do
  let (year, cs) ← year? cs
  let (month, cs) ← part? (← mark? '-' cs)
  let (day, cs) ← part? (← mark? '-' cs)
  let (hour, cs) ← part? (dropBlanks cs)
  let (minute, cs) ← part? (← mark? ':' cs)
  let (second, cs) ← if seconds then part? (← mark? ':' cs) else some (0, cs)
  if cs.isEmpty then some ⟨year, month, day, hour, minute, second⟩ else none

/-- Read a whole text as a datetime that exists. -/
def datetime? (cs : List Char) : Option Datetime :=
  ((numbers? true cs).filter Datetime.inCalendar).or
    ((numbers? false cs).filter Datetime.inCalendar)

end Ariel.Calendar
