import Criteria.Json.Number
import Criteria.Time.Timestamp
import Criteria.Toml.Basic
import Criteria.Toml.Key

/-!
# Numbers and moments of TOML

## Main definitions

- `number?`: integers and floating-point numbers
- `moment?`: dates, times of day, and both together
- `scalarValue?`: a value that is no array and no table
-/

namespace Criteria.Toml

/-- The value of a digit of a base up to sixteen. -/
def digit? (base : Nat) (c : Char) : Option Nat :=
  (Token.hexValue? c).filter (· < base)

/-- One or more digits of a base, with single underscores between them. -/
def digitRun? (base : Nat) : List Char → Option (List Nat × List Char)
  | [] => none
  | c :: rest => do
    let d ← digit? base c
    match rest with
    | '_' :: after => do
      let (ds, rest) ← digitRun? base after
      return (d :: ds, rest)
    | next :: after =>
      if (digit? base next).isSome then do
        let (ds, rest) ← digitRun? base (next :: after)
        return (d :: ds, rest)
      else return ([d], next :: after)
    | [] => return ([d], [])

/-- A sign, if there is one. -/
def sign : List Char → Bool × List Char
  | '-' :: rest => (true, rest)
  | '+' :: rest => (false, rest)
  | cs => (false, cs)

/-- An integer of 64 bits. -/
def int64? (negative : Bool) (magnitude : Nat) : Option Toml :=
  let i : Int := if negative then -magnitude else magnitude
  if minInt64 ≤ i && i ≤ maxInt64 then some (.int i) else none

/-- An unsigned integer in a base other than ten, after the letter of the base. -/
def based? (base : Nat) (cs : List Char) : Option (Toml × List Char) := do
  let (digits, rest) ← digitRun? base cs
  let value ← int64? false (digits.foldl (fun n d => n * base + d) 0)
  return (value, rest)

/-- The digits of an integer: a zero alone, or digits that start with no zero. -/
def whole? : List Char → Option (List Nat × List Char)
  | '0' :: rest => some ([0], rest)
  | cs => digitRun? 10 cs

/-- The digits after a point, if there is a point. -/
def fraction? : List Char → Option (Option (List Nat) × List Char)
  | '.' :: rest => (digitRun? 10 rest).map fun (digits, rest) => (some digits, rest)
  | cs => some (none, cs)

/-- The power of ten, if there is one. -/
def power? : List Char → Option (Option Int × List Char)
  | [] => some (none, [])
  | c :: rest =>
    if c = 'e' || c = 'E' then do
      let (negative, rest) := sign rest
      let (digits, rest) ← digitRun? 10 rest
      let n : Int := Token.ofDigits digits
      return (some (if negative then -n else n), rest)
    else some (none, c :: rest)

/-- The least decimal magnitude that rounds to infinity: half a step beyond the greatest
finite double. -/
def overflowBound : Nat := (Nat.pow 2 54 - 1) * Nat.pow 2 970

/-- The digits times a power of ten are beyond the finite doubles. -/
def overflows (digits : List Nat) : Int → Bool
  | .ofNat e => if 309 ≤ e then Token.ofDigits digits != 0
    else overflowBound ≤ Token.ofDigits digits * Nat.pow 10 e
  | .negSucc e =>
    e < digits.length && overflowBound * Nat.pow 10 (e + 1) ≤ Token.ofDigits digits

/-- A number in digits. A floating-point number has a fraction or a power of ten; one that
overflows has to be negative. -/
def decimal? (cs : List Char) : Option (Toml × List Char) := do
  let (negative, cs) := sign cs
  let (whole, cs) ← whole? cs
  let (fraction, cs) ← fraction? cs
  let (power, rest) ← power? cs
  if fraction.isNone && power.isNone then
    let value ← int64? negative (Token.ofDigits whole)
    return (value, rest)
  else
    let places := fraction.getD []
    if !negative && overflows (whole ++ places) (power.getD 0 - places.length) then none
    else return (.float, rest)

/-- A number; infinity and not-a-number are written as words. -/
def number? (cs : List Char) : Option (Toml × List Char) :=
  match cs with
  | '0' :: 'x' :: rest => based? 16 rest
  | '0' :: 'o' :: rest => based? 8 rest
  | '0' :: 'b' :: rest => based? 2 rest
  | _ =>
    match (sign cs).2 with
    | 'i' :: 'n' :: 'f' :: rest => some (.float, rest)
    | 'n' :: 'a' :: 'n' :: rest => some (.float, rest)
    | _ => decimal? cs

/-- A number of exactly so many digits, within bounds. -/
def fixedDigits? (width least greatest : Nat) (cs : List Char) : Option (Nat × List Char) := do
  let digits ← (cs.take width).mapM Token.digitValue?
  let n := Token.ofDigits digits
  if digits.length = width && least ≤ n && n ≤ greatest then return (n, cs.drop width)
  else none

/-- The rest after a character that has to stand first. -/
def expect? (c : Char) : List Char → Option (List Char)
  | d :: rest => if c = d then some rest else none
  | [] => none

/-- A fraction of a second, if there is one; the rest of the text. -/
def skipFraction? : List Char → Option (List Char)
  | '.' :: rest =>
    match Token.digits? rest with
    | some (_, rest) => some rest
    | none => none
  | cs => some cs

/-- The hour and minute of a time of day; the rest of the text. -/
def hourMinute? (cs : List Char) : Option (List Char) := do
  let (_, cs) ← fixedDigits? 2 0 23 cs
  let cs ← expect? ':' cs
  let (_, rest) ← fixedDigits? 2 0 59 cs
  return rest

/-- A time of day; the rest of the text. -/
def timeOfDay? (cs : List Char) : Option (List Char) := do
  let cs ← hourMinute? cs
  let cs ← expect? ':' cs
  let (_, cs) ← fixedDigits? 2 0 60 cs
  skipFraction? cs

/-- A day of the calendar; the rest of the text. -/
def day? (cs : List Char) : Option (List Char) := do
  let (year, cs) ← fixedDigits? 4 0 9999 cs
  let cs ← expect? '-' cs
  let (month, cs) ← fixedDigits? 2 1 12 cs
  let cs ← expect? '-' cs
  let (_, rest) ← fixedDigits? 2 1 (Date.daysInMonth year month) cs
  return rest

/-- A distance from universal time, if there is one; the rest of the text. -/
def skipZone? : List Char → Option (List Char)
  | [] => some []
  | c :: rest =>
    if c = 'Z' || c = 'z' then some rest
    else if c = '+' || c = '-' then hourMinute? rest
    else some (c :: rest)

/-- A day with a time of day and a zone, both of which may be missing, or a time of day. -/
def moment? (cs : List Char) : Option (List Char) :=
  match day? cs with
  | none => timeOfDay? cs
  | some [] => some []
  | some (c :: rest) =>
    if c = 'T' || c = 't' || c = ' ' then
      match timeOfDay? rest with
      | some rest => skipZone? rest
      | none => some (c :: rest)
    else some (c :: rest)

/-- A value that is no array and no table. -/
def scalarValue? (cs : List Char) : Option (Toml × List Char) :=
  match cs with
  | [] => none
  | c :: _ =>
    if c = '"' || c = '\'' then (string? cs).map fun (s, rest) => (.text s, rest)
    else
      match cs with
      | 't' :: 'r' :: 'u' :: 'e' :: rest => some (.bool true, rest)
      | 'f' :: 'a' :: 'l' :: 's' :: 'e' :: rest => some (.bool false, rest)
      | _ =>
        match moment? cs with
        | some rest => some (.moment, rest)
        | none => number? cs

end Criteria.Toml
