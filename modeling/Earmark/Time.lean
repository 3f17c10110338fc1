import Earmark.Whole

/-!
Points in time on a wall clock, with or without an offset from universal time, to the microsecond.

Two times compare by the instants they name when both have an offset and by their wall clocks when
neither has one; otherwise they do not compare.
-/

namespace Earmark

open scoped Earmark.Whole

/-- A wall-clock time. -/
structure Time where
  /-- Microseconds since the start of the year 1. -/
  micros : Int
  /-- Microseconds that the wall clock is ahead of universal time, if that is known. -/
  offset : Option Int
  deriving DecidableEq, Repr, Inhabited

namespace Time

def secondMicros : Int := 1000000

def dayMicros : Int := 86400 * secondMicros

/-- The number of days from the start of the year 1 to the end of the year 9999. -/
def dayCount : Int := 3652059

/-- The time is on the calendar of the years 1 to 9999. -/
def onCalendar (micros : Int) : Bool := 0 ≤ micros && micros < dayCount * dayMicros

/-- The point in universal time, a time without an offset counting as universal. -/
def instant (t : Time) : Int := t.micros - t.offset.getD 0

def compare? (a b : Time) : Option Ordering :=
  if a.offset.isSome = b.offset.isSome then some (compare a.instant b.instant) else none

/-- Whether two times name one point; times that do not compare are different. -/
def same (a b : Time) : Bool := compare? a b == some .eq

/-- The time `days` days later on the wall clock, if it is on the calendar. -/
def addDays? (t : Time) (days : Int) : Option Time :=
  let micros := t.micros + days * dayMicros
  if onCalendar micros then some { t with micros } else none

/-- The time so many minutes later. -/
def addMinutes (t : Time) (minutes : Nat) : Time :=
  { t with micros := t.micros + minutes * 60 * secondMicros }

/-- Forgets the offset: the wall clock counts as universal time. -/
def asUniversal (t : Time) : Time := { t with offset := some 0 }

def isLeap (year : Nat) : Bool := year % 4 == 0 && (year % 100 != 0 || year % 400 == 0)

def monthLengths (year : Nat) : List Nat :=
  [31, if isLeap year then 29 else 28, 31, 30, 31, 30, 31, 31, 30, 31, 30, 31]

/-- The days of the years before `year`. -/
def daysBeforeYear (year : Nat) : Nat :=
  let y := year - 1
  y * 365 + y / 4 - y / 100 + y / 400

/-- The days since the start of the year 1 of a date. -/
def daysOfDate (year month day : Nat) : Nat :=
  daysBeforeYear year + ((monthLengths year).take (month - 1)).sum + (day - 1)

/-- The month and the day of a day of the year, counted from zero. -/
def monthOfDay (lengths : List Nat) (month day : Nat) : Nat × Nat :=
  match lengths with
  | [] => (month, day + 1)
  | length :: rest =>
    if day < length then (month, day + 1) else monthOfDay rest (month + 1) (day - length)

/-- The year, the month and the day of a number of days since the start of the year 1. -/
def dateOfDays (days : Nat) : Nat × Nat × Nat :=
  let guess := days / 366 + 1
  -- a year begins within `guess`, or at most 28 years after it
  let year := ((List.range 30).map (guess + ·)).findRev? (daysBeforeYear · ≤ days) |>.getD guess
  (year, monthOfDay (monthLengths year) 1 (days - daysBeforeYear year))

/-- The parts of a wall-clock time. -/
structure Fields where
  year : Nat
  month : Nat
  day : Nat
  hour : Nat
  minute : Nat
  second : Nat
  micro : Nat
  deriving Repr

def fields (t : Time) : Fields :=
  let micros := t.micros.toNat
  let seconds := micros / 1000000
  let (year, month, day) := dateOfDays (seconds / 86400)
  { year, month, day
    hour := seconds / 3600 % 24, minute := seconds / 60 % 60, second := seconds % 60
    micro := micros % 1000000 }

/-- A number with zeros in front up to a width. -/
def padded (width n : Nat) : String :=
  let digits := Nat.repr n
  String.ofList (List.replicate (width - digits.length) '0') ++ digits

/-- The fraction of a second, none when it is zero. -/
def fractionText (micro : Nat) : String := if micro = 0 then "" else "." ++ padded 6 micro

/-- The wall clock, as `2025-03-01T10:00:00`, with a fraction only when there is one. -/
def clockText (t : Time) : String :=
  let f := t.fields
  padded 4 f.year ++ "-" ++ padded 2 f.month ++ "-" ++ padded 2 f.day ++ "T" ++ padded 2 f.hour ++
    ":" ++ padded 2 f.minute ++ ":" ++ padded 2 f.second ++ fractionText f.micro

/-- An offset, as `+05:30`, with seconds only when there are any. -/
def offsetText (offset : Int) : String :=
  let micros := offset.natAbs
  let seconds := micros / 1000000
  (if offset < 0 then "-" else "+") ++ padded 2 (seconds / 3600) ++ ":" ++
    padded 2 (seconds / 60 % 60) ++
    (if seconds % 60 = 0 ∧ micros % 1000000 = 0 then ""
     else ":" ++ padded 2 (seconds % 60) ++ fractionText (micros % 1000000))

def toText (t : Time) : String :=
  t.clockText ++ match t.offset with
    | none => ""
    | some offset => offsetText offset

/-- The form with `Z` for universal time, and with the minutes of any other offset. Less than a
second counts as the second before it. -/
def toZulu (t : Time) : String :=
  t.clockText ++ match t.offset with
    | none => ""
    | some offset =>
      let seconds := offset / secondMicros
      let minutes := seconds.natAbs / 60
      if seconds = 0 then "Z"
      else
        (if seconds < 0 then "-" else "+") ++ padded 2 (minutes / 60) ++ ":" ++
          padded 2 (minutes % 60)

def monthNames : List String :=
  ["Jan", "Feb", "Mar", "Apr", "May", "Jun", "Jul", "Aug", "Sep", "Oct", "Nov", "Dec"]

/-- The date, as `01 Mar 2025`. -/
def dateText (t : Time) : String :=
  let f := t.fields
  padded 2 f.day ++ " " ++ monthNames.getD (f.month - 1) "" ++ " " ++ Nat.repr f.year

end Time

end Earmark
