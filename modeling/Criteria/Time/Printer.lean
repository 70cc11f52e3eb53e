import Criteria.Double.Shortest
import Criteria.Time.Timestamp

/-!
# Writing timestamps

## Main definitions

- `Date.render`: year, month and day
- `Timestamp.render`: a date and a time joined by `T`
- `Timestamp.renderUniversal`: the same with the mark of offset zero
-/

namespace Criteria.Time

/-- A number in at least `width` digits. -/
def padded (width n : Nat) : List Char :=
  let digits := decimalDigits n
  List.replicate (width - digits.length) '0' ++ digits

/-- A year in at least four digits, with a sign unless it has four and is not negative. -/
def yearText (year : Int) : List Char :=
  if year < 0 then '-' :: padded 4 year.natAbs
  else if year ≤ 9999 then padded 4 year.natAbs
  else '+' :: padded 4 year.natAbs

/-- A fraction of a second in as few groups of three digits as hold it, with its point. -/
def fractionText (nanosecond : Nat) : List Char :=
  if nanosecond = 0 then []
  else if nanosecond % 1000000 = 0 then '.' :: padded 3 (nanosecond / 1000000)
  else if nanosecond % 1000 = 0 then '.' :: padded 6 (nanosecond / 1000)
  else '.' :: padded 9 nanosecond

end Criteria.Time

namespace Criteria

open Time

/-- The characters of a date. -/
def Date.render (d : Date) : List Char :=
  yearText d.year ++ '-' :: padded 2 d.month ++ '-' :: padded 2 d.day

/-- The characters of a timestamp; a leap second is written as second 60. -/
def Timestamp.render (t : Timestamp) : List Char :=
  let leap := leapNanosecond ≤ t.nanosecond
  let second := if leap then t.second + 1 else t.second
  let nanosecond := if leap then t.nanosecond - leapNanosecond else t.nanosecond
  t.date.render ++ 'T' :: padded 2 t.hour ++ ':' :: padded 2 t.minute ++
    ':' :: padded 2 second ++ fractionText nanosecond

/-- The characters of a timestamp at offset zero. -/
def Timestamp.renderUniversal (t : Timestamp) : List Char :=
  t.render ++ ['Z']

end Criteria
