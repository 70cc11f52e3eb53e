import Criteria.Double.Scaling
import Criteria.Double.Shortest

/-!
# JSON numbers

A JSON number is an integer of 64 bits, signed or unsigned, or a floating-point number.
`1` and `1.0` are different numbers with different texts and the same size.

## Main definitions

- `Number`: the two kinds
- `NumberText`: the parts of a number as it stands in a text
- `NumberText.value?`: the number that a text denotes, undefined beyond the finite range
- `Number.text`: the written form
-/

namespace Criteria

/-- A JSON number. An integer lies between `-2 ^ 63` and `2 ^ 64 - 1`, and a
floating-point number in a document is finite. -/
inductive Number where
  | int (i : Int)
  | double (x : Double)
deriving DecidableEq, Repr, Inhabited

/-- The number as a floating-point number. -/
def Number.toDouble : Number → Double
  | .int i => .ofInt i
  | .double x => x

/-- The least signed integer of 64 bits. -/
def minInt64 : Int := -(Nat.pow 2 63 : Int)

/-- The greatest signed integer of 64 bits. -/
def maxInt64 : Int := (Nat.pow 2 63 : Int) - 1

/-- The greatest unsigned integer of 64 bits. -/
def maxUInt64 : Int := (Nat.pow 2 64 : Int) - 1

/-- The signed integer of 64 bits that the number is. -/
def Number.toInt64? : Number → Option Int
  | .int i => if i ≤ maxInt64 then some i else none
  | .double _ => none

/-- The unsigned integer of 64 bits that the number is. -/
def Number.toUInt64? : Number → Option Nat
  | .int i => if 0 ≤ i then some i.toNat else none
  | .double _ => none

/-- The written form in JSON: magnitudes from `1e-5` to below `1e16` stand in positional
form and always with a fraction, other numbers with an exponent, and a tie goes to the
even digit. -/
def jsonLayout : DecimalLayout where
  tie := .even
  positionalFrom := -5
  positionalTo := 15
  pointZero := true
  notANumber := "null"
  infinite := "null"

/-- An integer in decimal. -/
def intText (i : Int) : List Char :=
  if i < 0 then '-' :: decimalDigits i.natAbs else decimalDigits i.natAbs

/-- The written form of a number; what is not finite has the form of null. -/
def Number.text : Number → List Char
  | .int i => intText i
  | .double x => if x.isFinite then x.write jsonLayout else "null".toList

/-- A number as it stands in a text: its sign, the digits before and after the point and
its power of ten, where the latter two may be absent. -/
structure NumberText where
  negative : Bool
  whole : List Nat
  fraction : Option (List Nat)
  exponent : Option Int
deriving Repr

/-- The integer with a sign and a magnitude, if it is one of 64 bits. There is no
negative zero among the integers. -/
def signedInt? (negative : Bool) (magnitude : Nat) : Option Int :=
  if !negative then some magnitude
  else if 0 < magnitude && magnitude ≤ Nat.pow 2 63 then some (-(magnitude : Int))
  else none

/-- The number that a text denotes: an integer if it has neither fraction nor exponent
and fits, and otherwise a floating-point number read by scaling its leading digits. -/
def NumberText.value? (t : NumberText) : Option Number :=
  let (whole, dropped) := leadingDigits 0 t.whole
  let asDouble (significand : Nat) (exponent : Int) : Option Number :=
    ((Double.ofNat significand).scaleByTen? exponent).map fun x =>
      .double (if t.negative then x.neg else x)
  match t.fraction, t.exponent with
  | none, none =>
    if dropped.isEmpty then
      match signedInt? t.negative whole with
      | some i => some (.int i)
      | none => asDouble whole 0
    else asDouble whole dropped.length
  | fraction, exponent =>
    let digits := fraction.getD []
    let (significand, unread) := leadingDigits whole digits
    let places : Int := (digits.length : Int) - unread.length
    asDouble significand (exponent.getD 0 + dropped.length - places)

end Criteria
