import Criteria.Text.Blank
import Criteria.Time.Timestamp

/-!
# Reading timestamps

Four forms of text denote a timestamp: the interchange form with an offset, which is
strict about widths; a date and a time joined by `T` or by white space, and a date alone,
which are lenient about widths and about white space before a number.

## Main definitions

- `Timestamp.ofOffsetText?`: the interchange form, moved to offset zero
- `Timestamp.ofLocalText?`: a date and a time
- `Date.ofText?`: a date
- `Timestamp.ofText?`: the first of the forms that fits
-/

namespace Criteria.Time

/-- The value of an ASCII digit. -/
def digit? (c : Char) : Option Nat :=
  if '0' ≤ c && c ≤ '9' then some (c.toNat - '0'.toNat) else none

/-- At most `limit` digits: the number they spell after `value`, how many they are, and the
rest. -/
def upToDigits (limit : Nat) (value : Nat) : List Char → Nat × Nat × List Char
  | [] => (value, 0, [])
  | c :: rest =>
    match limit, digit? c with
    | limit + 1, some d =>
      let (value, count, after) := upToDigits limit (value * 10 + d) rest
      (value, count + 1, after)
    | _, _ => (value, 0, c :: rest)

/-- Exactly `width` digits. -/
def exactly? (width : Nat) (cs : List Char) : Option (Nat × List Char) :=
  match upToDigits width 0 cs with
  | (value, count, rest) => if count = width then some (value, rest) else none

/-- From one to `limit` digits. -/
def atMost? (limit : Nat) (cs : List Char) : Option (Nat × List Char) :=
  match upToDigits limit 0 cs with
  | (value, count, rest) => if count = 0 then none else some (value, rest)

/-- One given character. -/
def literal? (c : Char) : List Char → Option (List Char)
  | [] => none
  | d :: rest => if d = c then some rest else none

/-- The fraction of a second after a point, in nanoseconds: of any number of digits the
first nine count. Without a point there is none. -/
def fraction? : List Char → Option (Nat × List Char)
  | '.' :: rest =>
    match upToDigits 9 0 rest with
    | (_, 0, _) => none
    | (value, count, after) =>
      some (value * Nat.pow 10 (9 - count), after.dropWhile fun c => (digit? c).isSome)
  | cs => some (0, cs)

/-- The time of day if its parts are in range; second 60 is a leap second. -/
def timeOf? (date : Date) (hour minute second fraction : Nat) : Option Timestamp :=
  if hour < 24 && minute < 60 && second ≤ 60 then
    if second = 60 then some ⟨date, hour, minute, 59, leapNanosecond + fraction⟩
    else some ⟨date, hour, minute, second, fraction⟩
  else none

/-- The date if it is a day of the calendar. -/
def dateOf? (year : Int) (month day : Nat) : Option Date :=
  let date : Date := ⟨year, month, day⟩
  if date.isValid then some date else none

/-- A year: four digits at most, or a sign and any number of digits. -/
def year? (cs : List Char) : Option (Int × List Char) :=
  match cs.dropWhile Text.isSpace with
  | '-' :: rest => do
    let (value, after) ← atMost? rest.length rest
    return (-(value : Int), after)
  | '+' :: rest => do
    let (value, after) ← atMost? rest.length rest
    return ((value : Int), after)
  | cs => do
    let (value, after) ← atMost? 4 cs
    return ((value : Int), after)

/-- One or two digits, after white space. -/
def twoDigits? (cs : List Char) : Option (Nat × List Char) :=
  atMost? 2 (cs.dropWhile Text.isSpace)

/-- A date in the lenient form. -/
def date? (cs : List Char) : Option (Date × List Char) := do
  let (year, cs) ← year? cs
  let cs ← literal? '-' cs
  let (month, cs) ← twoDigits? cs
  let cs ← literal? '-' cs
  let (day, cs) ← twoDigits? cs
  let date ← dateOf? year month day
  return (date, cs)

/-- A time of day in the lenient form. -/
def time? (date : Date) (cs : List Char) : Option (Timestamp × List Char) := do
  let (hour, cs) ← twoDigits? cs
  let cs ← literal? ':' cs
  let (minute, cs) ← twoDigits? cs
  let cs ← literal? ':' cs
  let (second, cs) ← twoDigits? cs
  let (fraction, cs) ← fraction? cs
  let t ← timeOf? date hour minute second fraction
  return (t, cs)

/-- A value with nothing after it. -/
def complete? {α : Type} : Option (α × List Char) → Option α
  | some (a, []) => some a
  | _ => none

/-- An offset in minutes: zero, or a sign, two digits of hours and two of minutes, and
less than a day. -/
def offset? : List Char → Option (Int × List Char)
  | [] => none
  | c :: rest =>
    if c = 'Z' || c = 'z' then some (0, rest)
    else if c = '+' || c = '-' || c = '−' then do
      let (hours, rest) ← exactly? 2 rest
      let rest ← literal? ':' rest
      let (minutes, rest) ← exactly? 2 rest
      let offset : Int := (hours * 60 + minutes : Nat)
      if minutes < 60 && offset < 1440 then
        return (if c = '+' then offset else -offset, rest)
      else none
    else none

/-- The mark between the date and the time in the interchange form. -/
def isTimeMark (c : Char) : Bool :=
  c = 'T' || c = 't' || c = ' '

/-- A timestamp in the interchange form. -/
def interchange? (cs : List Char) : Option (Timestamp × List Char) := do
  let (year, cs) ← exactly? 4 cs
  let cs ← literal? '-' cs
  let (month, cs) ← exactly? 2 cs
  let cs ← literal? '-' cs
  let (day, cs) ← exactly? 2 cs
  let date ← dateOf? year month day
  let (mark, cs) ← cs.head?.map fun c => (c, cs.drop 1)
  if !isTimeMark mark then none
  let (hour, cs) ← exactly? 2 cs
  let cs ← literal? ':' cs
  let (minute, cs) ← exactly? 2 cs
  let cs ← literal? ':' cs
  let (second, cs) ← exactly? 2 cs
  let (fraction, cs) ← fraction? cs
  let (offset, cs) ← offset? cs
  let t ← timeOf? date hour minute second fraction
  return (t.shiftMinutes (-offset), cs)

/-- A lenient date, the mark `T` and a lenient time. -/
def marked? (cs : List Char) : Option (Timestamp × List Char) := do
  let (date, cs) ← date? cs
  let cs ← literal? 'T' cs
  time? date cs

/-- A lenient date, any white space and a lenient time. -/
def spaced? (cs : List Char) : Option (Timestamp × List Char) := do
  let (date, cs) ← date? cs
  time? date (cs.dropWhile Text.isSpace)

end Criteria.Time

namespace Criteria

open Time

/-- The date that a text denotes. -/
def Date.ofText? (text : String) : Option Date :=
  complete? (date? text.toList)

/-- The timestamp that a text with an offset denotes, at offset zero. -/
def Timestamp.ofOffsetText? (text : String) : Option Timestamp :=
  complete? (interchange? text.toList)

/-- The timestamp that a text without an offset denotes, where `T` joins the date and the
time. -/
def Timestamp.ofLocalText? (text : String) : Option Timestamp :=
  complete? (marked? text.toList)

/-- The timestamp that a text denotes, in the first of the accepted forms that fits. -/
def Timestamp.ofText? (text : String) : Option Timestamp :=
  Timestamp.ofOffsetText? text
    <|> Timestamp.ofLocalText? text
    <|> complete? (spaced? text.toList)
    <|> (Date.ofText? text).map .midnight

end Criteria
