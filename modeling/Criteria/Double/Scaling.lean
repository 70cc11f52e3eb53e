import Criteria.Double.Basic

/-!
# Scaling by powers of ten

A decimal is read by rounding its leading digits to a number and scaling that by a power
of ten. Each step rounds once, so the result of a long decimal may miss the nearest
number by a last place.

## Main definitions

- `leadingDigits`: the number that the leading digits spell, as many as fit in 64 bits
- `Double.scaleByTen?`: a number times a power of ten, undefined on overflow
-/

namespace Criteria

/-- The greatest number that the leading digits of a decimal may spell. -/
def maxSignificand : Nat := Nat.pow 2 64 - 1

/-- Appends digits to a number for as long as it fits in 64 bits, and returns it with the
digits that did not fit. -/
def leadingDigits (significand : Nat) : List Nat → Nat × List Nat
  | [] => (significand, [])
  | digit :: rest =>
    let longer := significand * 10 + digit
    if longer ≤ maxSignificand then leadingDigits longer rest
    else (significand, digit :: rest)

/-- The greatest power of ten that one step scales by. -/
def maxScaleStep : Nat := 308

namespace Double

/-- The number divided by ten to the given power. -/
def scaleDown (x : Double) (exponent : Nat) : Double :=
  if exponent ≤ maxScaleStep then x.div (powTen exponent)
  else if x.isZero then x
  else scaleDown (x.div (powTen maxScaleStep)) (exponent - maxScaleStep)
termination_by exponent
decreasing_by
  simp only [maxScaleStep] at *
  omega

/-- The number times ten to the given power, if that is not beyond the finite numbers. -/
def scaleByTen? (x : Double) (exponent : Int) : Option Double :=
  if exponent < 0 then some (x.scaleDown (-exponent).toNat)
  else if x.isZero then some x
  else if exponent.toNat ≤ maxScaleStep then
    let y := x.mul (powTen exponent.toNat)
    if y.isFinite then some y else none
  else none

end Double

end Criteria
