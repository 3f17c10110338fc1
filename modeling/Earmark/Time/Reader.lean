import Earmark.Text.Literal
import Earmark.Time

/-!
Reading times. A date is written by month and day or by week and weekday, with hyphens or without;
behind any one character may follow a time of day, with colons or without, and an offset. The form
is checked first, then the offset, the date and the time of day.

Nothing is read behind a null character.
-/

namespace Earmark.Time

open Earmark.Text
open scoped Earmark.Whole

/-- Why a text is no time. -/
inductive Fault
  | malformed
  | year (n : Nat)
  | month
  | day
  | hour
  | minute
  | second
  /-- The wall clock is a day or more away from universal time. -/
  | offset (micros : Int)
  deriving DecidableEq, Repr

/-- Reads exactly `count` digits. -/
def readDigits? (count : Nat) (cs : List Char) : Option (Nat × List Char) := do
  let digits ← (cs.take count).mapM asciiDigit?
  if digits.length = count then some (ofDigits digits, cs.drop count) else none

/-- Reads a hyphen where there should be one. -/
def readHyphen? (hyphens : Bool) (cs : List Char) : Option (List Char) :=
  if hyphens then
    match cs with
    | '-' :: rest => some rest
    | _ => none
  else some cs

/-- A date as it is written. -/
inductive WrittenDate
  | monthDay (year month day : Nat)
  /-- Weeks and weekdays count from one, weekdays from Monday. -/
  | weekDay (year week day : Nat)
  deriving DecidableEq, Repr

/-- The length of the date at the front of a text. Where digits follow a week, a hyphen before them
ends the date, and without hyphens an odd number of them begins with the weekday. -/
def dateLength (cs : List Char) : Nat :=
  if cs.length = 7 then 7
  else match cs.drop 4 with
    | '-' :: 'W' :: _ =>
      match cs.drop 8 with
      | '-' :: _ :: c :: _ => if c.isDigit then 8 else 10
      | '-' :: _ => 10
      | _ => 8
    | '-' :: _ => 10
    | 'W' :: _ =>
      let digits := ((cs.drop 7).takeWhile Char.isDigit).length
      if digits < 2 then 7 + digits else if digits % 2 = 1 then 7 else 8
    | _ => 8

/-- Reads a date that is the whole text. -/
def readDate? (cs : List Char) : Option WrittenDate := do
  let (year, rest) ← readDigits? 4 cs
  let (hyphens, rest) := match rest with
    | '-' :: rest => (true, rest)
    | rest => (false, rest)
  match rest with
  | 'W' :: rest =>
    let (week, rest) ← readDigits? 2 rest
    if rest = [] then some (.weekDay year week 1)
    else
      let (day, _) ← readHyphen? hyphens rest >>= readDigits? 1
      some (.weekDay year week day)
  | rest =>
    let (month, rest) ← readDigits? 2 rest
    let (day, _) ← readHyphen? hyphens rest >>= readDigits? 2
    some (.monthDay year month day)

/-- The weekday of the first day of a year, counted from Monday as zero. -/
def firstWeekday (year : Nat) : Nat := daysBeforeYear year % 7

/-- How many weeks a year has: those that have their Thursday in it. -/
def weekCount (year : Nat) : Nat :=
  if firstWeekday year = 3 ∨ (firstWeekday year = 2 ∧ isLeap year) then 53 else 52

/-- The days since the start of the year 1 of the Monday of a year's first week. -/
def firstMonday (year : Nat) : Int :=
  daysBeforeYear year - firstWeekday year + (if firstWeekday year ≤ 3 then 0 else 7)

/-- Whether a weekday of a week exists. -/
def WrittenDate.isForm : WrittenDate → Bool
  | .monthDay .. => true
  | .weekDay year week day => 1 ≤ week && week ≤ weekCount year && 1 ≤ day && day ≤ 7

/-- The days of a date since the start of the year 1. -/
def daysOfFields (year month day : Nat) : Except Fault Nat :=
  if year = 0 ∨ 9999 < year then .error (.year year)
  else if month = 0 ∨ 12 < month then .error .month
  else if day = 0 ∨ (monthLengths year).getD (month - 1) 0 < day then .error .day
  else .ok (daysOfDate year month day)

/-- The days since the start of the year 1; the weeks of the year 0 are in none of its months. -/
def WrittenDate.days : WrittenDate → Except Fault Nat
  | .monthDay year month day => daysOfFields year month day
  | .weekDay year week day =>
    if year = 0 then .error .month
    else
      let behind := 7 * (week - 1) + (day - 1)
      let (year, month, day) := dateOfDays (firstMonday year + behind).toNat
      daysOfFields year month day

/-- A time of day as it is written; an offset has the same form. -/
structure Clock where
  hour : Nat := 0
  minute : Nat := 0
  second : Nat := 0
  micro : Nat := 0
  deriving DecidableEq, Repr

namespace Clock

/-- Sets the hour, the minute or the second. -/
def set (clock : Clock) (part n : Nat) : Clock :=
  match part with
  | 0 => { clock with hour := n }
  | 1 => { clock with minute := n }
  | _ => { clock with second := n }

def seconds (clock : Clock) : Nat := (clock.hour * 60 + clock.minute) * 60 + clock.second

def micros (clock : Clock) : Int := clock.seconds * secondMicros + clock.micro

def fault? (clock : Clock) : Option Fault :=
  if 23 < clock.hour then some .hour
  else if 59 < clock.minute then some .minute
  else if 59 < clock.second then some .second
  else none

end Clock

/-- Whether anything is left of a text. -/
def isLeft (cs : List Char) : Bool :=
  match cs with
  | [] => false
  | c :: _ => c != '\x00'

/-- Reads the fraction of a second: digits behind the sixth are dropped, and so is what follows. -/
def readFraction? (clock : Clock) (cs : List Char) : Option (Clock × Bool) := do
  let count := min 6 cs.length
  let (n, rest) ← readDigits? count cs
  some ({ clock with micro := n * 10 ^ (6 - count) }, isLeft (rest.dropWhile Char.isDigit))

/-- Reads hours, minutes and seconds from the given part on, each of two digits, and a fraction of
the last one; says whether anything is left. One ASCII character that is left is no fault here. -/
def readParts? (colons : Bool) (part : Nat) (clock : Clock) (cs : List Char) :
    Nat → Option (Clock × Bool)
  | 0 => readFraction? clock cs
  | fuel + 1 => do
    let (n, rest) ← readDigits? 2 cs
    let clock := clock.set part n
    match rest with
    | [] => some (clock, false)
    | [c] => if c.toNat < 128 then some (clock, isLeft [c]) else none
    | c :: more =>
      let colons := if part = 0 then c == ':' else colons
      if colons && c == ':' then readParts? colons (part + 1) clock more fuel
      else if c = '.' ∨ c = ',' then readFraction? clock more
      else if colons then none
      else readParts? colons (part + 1) clock rest fuel

/-- Reads a time of day or the amount of an offset. -/
def readClock? (cs : List Char) : Option (Clock × Bool) := readParts? false 0 {} cs 3

/-- Reads an offset that ends the text. One without whole seconds is none. -/
def readOffset? : List Char → Option Int
  | 'Z' :: rest => if isLeft rest then none else some 0
  | sign :: rest =>
    match readClock? rest with
    | some (clock, false) =>
      if clock.seconds = 0 then some 0
      else some (if sign = '-' then -clock.micros else clock.micros)
    | _ => none
  | [] => none

/-- Reads a time of day with or without an offset. -/
def readDaytime? (cs : List Char) : Option (Clock × Option Int) := do
  let inClock (c : Char) : Bool := c != '+' && c != '-' && c != 'Z'
  let (clock, left) ← readClock? (cs.takeWhile inClock)
  match cs.dropWhile inClock with
  | [] => if left then none else some (clock, none)
  | zone => some (clock, some (← readOffset? zone))

/-- Reads the parts of a time. -/
def readForm? (cs : List Char) : Option (WrittenDate × Clock × Option Int) := do
  if cs.length < 7 then none
  else
    let length := dateLength cs
    let date ← readDate? (cs.take length)
    if !date.isForm then none
    else match cs.drop length with
      | [] => some (date, {}, none)
      | _ :: rest => some (date, ← readDaytime? rest)

/-- Reads a date with an optional time of day and offset. -/
def ofText (s : String) : Except Fault Time :=
  match readForm? s.toList with
  | none => .error .malformed
  | some (date, clock, offset) => do
    if let some micros := offset then
      if dayMicros ≤ micros.natAbs then .error (.offset micros)
    let days ← date.days
    match clock.fault? with
    | some fault => .error fault
    | none => .ok { micros := days * dayMicros + clock.micros, offset }

/-- An amount of time by its whole days, and the seconds and microseconds above them. -/
def amountText (micros : Int) : String :=
  let seconds := micros % dayMicros / secondMicros
  let parts := [("days", micros / dayMicros), ("seconds", seconds),
    ("microseconds", micros % secondMicros)]
  let shown := (parts.filter (·.2 != 0)).map fun (name, n) => name ++ "=" ++ toString n
  "datetime.timedelta(" ++ ", ".intercalate shown ++ ")"

def Fault.message (text : String) : Fault → String
  | .malformed => "Invalid isoformat string: " ++ text
  | .year n => s!"year {n} is out of range"
  | .month => "month must be in 1..12"
  | .day => "day is out of range for month"
  | .hour => "hour must be in 0..23"
  | .minute => "minute must be in 0..59"
  | .second => "second must be in 0..59"
  | .offset micros =>
    "offset must be a timedelta strictly between -timedelta(hours=24) and timedelta(hours=24), " ++
      "not " ++ amountText micros ++ "."

end Earmark.Time
