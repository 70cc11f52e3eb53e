/-!
# Dates and timestamps

Dates of the proleptic Gregorian calendar and points in time without an offset.

## Main definitions

- `Date`, `Date.isValid`: a day of the calendar
- `Date.next`, `Date.previous`: the neighbouring days
- `Timestamp`, `Timestamp.isValid`: a date and a time of day
- `Timestamp.shiftMinutes`: a timestamp moved by less than a day
- `Timestamp.cmp`: the order of time

## Design notes

A leap second is second 59 with a nanosecond of a thousand million or more, so it comes
after every nanosecond of the ordinary second 59 and before the next minute.
-/

namespace Criteria

/-- A year, a month from 1 to 12 and a day from 1 on. -/
structure Date where
  year : Int
  month : Nat
  day : Nat
deriving DecidableEq, Repr, Inhabited

namespace Date

/-- The first and last year of the calendar. -/
def minYear : Int := -262143

def maxYear : Int := 262142

def isLeapYear (year : Int) : Bool :=
  year % 4 == 0 && (year % 100 != 0 || year % 400 == 0)

/-- The number of days in a month. -/
def daysInMonth (year : Int) (month : Nat) : Nat :=
  if month = 2 then (if isLeapYear year then 29 else 28)
  else if month = 4 || month = 6 || month = 9 || month = 11 then 30
  else 31

/-- The date is a day of the calendar. -/
def isValid (d : Date) : Bool :=
  minYear ≤ d.year && d.year ≤ maxYear && 1 ≤ d.month && d.month ≤ 12 &&
  1 ≤ d.day && d.day ≤ daysInMonth d.year d.month

/-- The day after. -/
def next (d : Date) : Date :=
  if d.day < daysInMonth d.year d.month then { d with day := d.day + 1 }
  else if d.month < 12 then ⟨d.year, d.month + 1, 1⟩
  else ⟨d.year + 1, 1, 1⟩

/-- The day before. -/
def previous (d : Date) : Date :=
  if 1 < d.day then { d with day := d.day - 1 }
  else if 1 < d.month then ⟨d.year, d.month - 1, daysInMonth d.year (d.month - 1)⟩
  else ⟨d.year - 1, 12, 31⟩

/-- The order of days. -/
def cmp : Date → Date → Ordering :=
  compareLex (compareOn year) (compareLex (compareOn month) (compareOn day))

end Date

/-- A nanosecond more than an ordinary second has. -/
def leapNanosecond : Nat := 1000000000

/-- A date and a time of day. -/
structure Timestamp where
  date : Date
  hour : Nat
  minute : Nat
  second : Nat
  nanosecond : Nat
deriving DecidableEq, Repr, Inhabited

namespace Timestamp

/-- The date is valid and the time is one of its day. A leap second is one of second
59. -/
def isValid (t : Timestamp) : Bool :=
  t.date.isValid && t.hour < 24 && t.minute < 60 && t.second < 60 &&
  (t.nanosecond < leapNanosecond || (t.second == 59 && t.nanosecond < 2 * leapNanosecond))

/-- The first moment of a day. -/
def midnight (d : Date) : Timestamp :=
  ⟨d, 0, 0, 0, 0⟩

/-- The timestamp with its clock moved by a number of minutes, less than a day. -/
def shiftMinutes (t : Timestamp) (minutes : Int) : Timestamp :=
  let moved := (t.hour * 60 + t.minute : Nat) + minutes
  let date :=
    if moved < 0 then t.date.previous
    else if moved < 1440 then t.date
    else t.date.next
  let inDay := (moved % 1440).toNat
  { t with date, hour := inDay / 60, minute := inDay % 60 }

/-- The order of time. -/
def cmp : Timestamp → Timestamp → Ordering :=
  compareLex (fun a b => a.date.cmp b.date)
    (compareLex (compareOn hour)
      (compareLex (compareOn minute) (compareLex (compareOn second) (compareOn nanosecond))))

end Timestamp

end Criteria
