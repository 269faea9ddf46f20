import WideColumn.Number.Decimal

/-!
# Dates and points in time

Calendar dates of the years 1 to 9999 and points in time on such a date, to the
microsecond, with or without an offset from universal time. The exact text has
four, two and six digit fields; microseconds are written only when there are
any, and the separator between date and time is the caller's choice.
-/

namespace WideColumn

/-- A date of the Gregorian calendar. -/
structure Date where
  /-- The year, from 1 to 9999. -/
  year : Nat
  /-- The month, from 1 to 12. -/
  month : Nat
  /-- The day of the month, from 1. -/
  day : Nat
  deriving DecidableEq, Repr

/-- A point in time on a date. -/
structure Timestamp where
  /-- The date on the clock that shows the time. -/
  date : Date
  /-- Hours since midnight. -/
  hour : Nat
  /-- Minutes since the hour. -/
  minute : Nat
  /-- Seconds since the minute. -/
  second : Nat
  /-- Microseconds since the second. -/
  microsecond : Nat
  /-- Microseconds that the clock is ahead of universal time, when it is tied to it. -/
  offset : Option Int
  deriving DecidableEq, Repr

/-- A number in at least `width` decimal digits. -/
def padded (width n : Nat) : List Char :=
  let ds := Decimal.digitsOf n
  List.replicate (width - ds.length) '0' ++ ds

namespace Date

/-- The year has a day more in February. -/
def isLeap (year : Nat) : Bool := year % 4 == 0 && (year % 100 != 0 || year % 400 == 0)

/-- The number of days of a month. -/
def daysIn (year month : Nat) : Nat :=
  if month = 2 then (if isLeap year then 29 else 28)
  else if month = 4 ∨ month = 6 ∨ month = 9 ∨ month = 11 then 30 else 31

/-- The fields name a day of the calendar. -/
def isValid (d : Date) : Bool :=
  1 ≤ d.year && d.year ≤ 9999 && 1 ≤ d.month && d.month ≤ 12 && 1 ≤ d.day &&
    d.day ≤ daysIn d.year d.month

/-- The number of days of the first months of a year. -/
def daysBefore (year : Nat) : (months : Nat) → Nat
  | 0 => 0
  | months + 1 => daysBefore year months + daysIn year (months + 1)

/-- Days from the day before the first of January of year 1. -/
def dayNumber (d : Date) : Nat :=
  let y := d.year - 1
  365 * y + y / 4 - y / 100 + y / 400 +
    daysBefore d.year (d.month - 1) + d.day

/-- Year, month and day with hyphens between them. -/
def chars (d : Date) : List Char :=
  padded 4 d.year ++ '-' :: padded 2 d.month ++ '-' :: padded 2 d.day

/-- The text of a date. -/
def text (d : Date) : String := String.ofList d.chars

end Date

namespace Timestamp

/-- Microseconds behind a point, when there are any. -/
def fractionChars (microseconds : Nat) : List Char :=
  if microseconds = 0 then [] else '.' :: padded 6 microseconds

/-- A signed offset in hours and minutes; seconds and microseconds follow when there are any. -/
def offsetChars (microseconds : Int) : List Char :=
  let fraction := microseconds.natAbs % 1000000
  let n := microseconds.natAbs / 1000000
  let rest := if n % 60 = 0 ∧ fraction = 0 then []
    else ':' :: padded 2 (n % 60) ++ fractionChars fraction
  (if microseconds < 0 then '-' else '+') :: padded 2 (n / 3600) ++ ':' ::
    padded 2 (n / 60 % 60) ++ rest

/-- Hours, minutes and seconds, then the microseconds and the offset when there are any. -/
def timeChars (t : Timestamp) : List Char :=
  padded 2 t.hour ++ ':' :: padded 2 t.minute ++ ':' :: padded 2 t.second ++
    fractionChars t.microsecond ++
    (match t.offset with | none => [] | some n => offsetChars n)

/-- Date and time with a separator of choice. -/
def text (separator : Char) (t : Timestamp) : String :=
  String.ofList (t.date.chars ++ separator :: t.timeChars)

/-- Date and time in the form that programs exchange, with a `T` between them. -/
def exchangeText (t : Timestamp) : String := t.text 'T'

/-- Date and time in the form that people read, with a space between them. -/
def displayText (t : Timestamp) : String := t.text ' '

/-- Microseconds since the start of the calendar on the clock that shows the time. -/
def clockMicroseconds (t : Timestamp) : Int :=
  (((t.date.dayNumber * 24 + t.hour) * 60 + t.minute) * 60 + t.second : Nat) * 1000000 +
    t.microsecond

/-- Equality as points in time: tied clocks by the instant, free clocks by what they show. -/
def sameInstant (s t : Timestamp) : Bool :=
  match s.offset, t.offset with
  | none, none => s.clockMicroseconds == t.clockMicroseconds
  | some a, some b =>
    s.clockMicroseconds - a == t.clockMicroseconds - b
  | _, _ => false

end Timestamp

/-- A leap day is a date of the calendar only in a leap year. -/
example : (Date.mk 2020 2 29).isValid = true ∧ (Date.mk 1900 2 29).isValid = false := by decide

end WideColumn
