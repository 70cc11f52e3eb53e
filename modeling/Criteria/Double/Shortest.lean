import Criteria.Double.Basic

/-!
# Shortest decimals

The shortest decimal that reads back as a given number, and its layout as text.

## Main definitions

- `Decimal`: digits and a power of ten
- `shortestOfRank`: the shortest decimal within the interval of reals that round to a
  magnitude, and of those the nearest to it
- `DecimalLayout`: the free choices of a written form
- `Double.write`: a number in a layout

## Design notes

A grid of one power of ten has at most two neighbours of the magnitude worth a look, the
one below and the one above. Grids are tried from coarse to fine, and the first that has
a neighbour in the interval gives the answer. Seventeen digits always suffice.
-/

namespace Criteria

/-- The number `digits * 10 ^ exponent`. -/
structure Decimal where
  digits : Nat
  exponent : Int
deriving DecidableEq, Repr

/-- The decimal digits of a number, most significant first. -/
def decimalDigits (n : Nat) : List Char :=
  Nat.toDigits 10 n

/-- Moves factors of ten from the digits into the exponent, at most `fuel` of them. -/
def Decimal.strip (d : Decimal) : Nat → Decimal
  | 0 => d
  | fuel + 1 =>
    if d.digits % 10 = 0 && d.digits != 0 then
      Decimal.strip ⟨d.digits / 10, d.exponent + 1⟩ fuel
    else d

/-- How a choice between two equally near decimals goes. -/
inductive DecimalTie where
  | even
  | up
deriving DecidableEq, Repr

/-- The nearest point of the grid of `10 ^ exponent` to a magnitude, among the points that
read back as the magnitude. The magnitude is `value` and the bounds of its interval are
`low` and `high`, all in halves of a unit. -/
def gridPoint? (tie : DecimalTie) (closed : Bool) (low value high : Nat) (exponent : Int) :
    Option Decimal :=
  -- Both sides are scaled to whole numbers: `point * step` is a point of the grid and
  -- `x * scale` one of the three magnitudes.
  let unit := Nat.pow 2 (unitExponent + 1)
  let step := if exponent < 0 then unit else Nat.pow 10 exponent.toNat * unit
  let scale := if exponent < 0 then Nat.pow 10 (-exponent).toNat else 1
  let inside (point : Nat) : Bool :=
    let x := point * step
    if closed then low * scale ≤ x && x ≤ high * scale
    else low * scale < x && x < high * scale
  let below := value * scale / step
  let above := below + 1
  match inside below, inside above with
  | false, false => none
  | true, false => some ⟨below, exponent⟩
  | false, true => some ⟨above, exponent⟩
  | true, true =>
    let down := value * scale - below * step
    let up := above * step - value * scale
    let takeAbove : Bool :=
      if up = down then
        match tie with
        | .even => below % 2 != 0
        | .up => true
      else up < down
    some ⟨if takeAbove then above else below, exponent⟩

/-- The exponent of the first significant digit of `value` halves of a unit. -/
def leadingExponent (value : Nat) : Int :=
  ((decimalDigits (value * Nat.pow 10 400 / Nat.pow 2 (unitExponent + 1))).length : Int) - 401

/-- Tries the grids from `exponent` down, at most `fuel` of them. -/
def firstGridPoint (tie : DecimalTie) (closed : Bool) (low value high : Nat) :
    Int → Nat → Decimal
  | exponent, 0 => ⟨0, exponent⟩
  | exponent, fuel + 1 =>
    match gridPoint? tie closed low value high exponent with
    | some d => d
    | none => firstGridPoint tie closed low value high (exponent - 1) fuel

/-- The shortest decimal that reads back as the magnitude of a rank that is neither zero
nor infinity. A bound of the interval belongs to it when the rank is even. -/
def shortestOfRank (tie : DecimalTie) (rank : Nat) : Decimal :=
  let here := unitsOfRank rank
  let value := 2 * here
  let low := unitsOfRank (rank - 1) + here
  let high := here + unitsOfRank (rank + 1)
  (firstGridPoint tie (rank % 2 == 0) low value high (leadingExponent value) 18).strip 20

/-- The free choices of a written form of numbers. -/
structure DecimalLayout where
  /-- Which way an equally near pair of shortest decimals goes. -/
  tie : DecimalTie
  /-- Exponents of the leading digit from here are written positionally. -/
  positionalFrom : Int
  /-- Exponents of the leading digit up to here are written positionally. -/
  positionalTo : Int
  /-- A whole number keeps one zero after the point. -/
  pointZero : Bool
  notANumber : String
  infinite : String
deriving Repr

/-- Digits with the decimal point `point` places after the first of them. -/
def writePositional (pointZero : Bool) (digits : List Char) (point : Int) : List Char :=
  if point ≤ 0 then
    '0' :: '.' :: (List.replicate (-point).toNat '0' ++ digits)
  else
    let places := point.toNat
    if digits.length ≤ places then
      digits ++ List.replicate (places - digits.length) '0' ++ (if pointZero then ['.', '0'] else [])
    else digits.take places ++ '.' :: digits.drop places

/-- Digits with a point after the first of them and a signed power of ten. -/
def writeScientific (digits : List Char) (exponent : Int) : List Char :=
  let mantissa :=
    match digits with
    | [] => []
    | [d] => [d]
    | d :: rest => d :: '.' :: rest
  mantissa ++ 'e' :: (if exponent < 0 then '-' else '+') :: decimalDigits exponent.natAbs

/-- A positive decimal in a layout. -/
def Decimal.write (layout : DecimalLayout) (d : Decimal) : List Char :=
  let digits := decimalDigits d.digits
  let leading := d.exponent + digits.length - 1
  if layout.positionalFrom ≤ leading && leading ≤ layout.positionalTo then
    writePositional layout.pointZero digits (leading + 1)
  else writeScientific digits leading

/-- The written form of a number in a layout. -/
def Double.write (layout : DecimalLayout) : Double → List Char
  | .nan => layout.notANumber.toList
  | .ranked negative rank =>
    let sign := if negative then ['-'] else []
    let magnitude :=
      if rank.val = 0 then
        if layout.pointZero then ['0', '.', '0'] else ['0']
      else if rank.val = infinityRank then layout.infinite.toList
      else (shortestOfRank layout.tie rank).write layout
    sign ++ magnitude

end Criteria
