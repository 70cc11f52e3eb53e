/-!
# Binary floating point

Numbers of the binary interchange format with 64 bits. A magnitude is represented by its
rank, the number of magnitudes below it, so that the order of numbers is the order of
ranks. Every finite magnitude is a whole multiple of the least positive one, which makes
sums and products exact in `Nat` before the one rounding of each operation.

## Main definitions

- `Double`: not-a-number, or a sign and a rank
- `unitsOfRank`: the magnitude of a rank, counted in least positive magnitudes
- `rankOfRatio`: the rank nearest to a ratio, ties to even
- `Double.ofInt`, `Double.add`, `Double.mul`, `Double.div`: correctly rounded operations
- `Double.compare?`: the order, undefined for not-a-number

## Design notes

Powers are written with `Nat.pow`, which is the same function whatever else is imported.
-/

namespace Criteria

/-- The rank of infinity, one more than the rank of the greatest finite magnitude. -/
def infinityRank : Nat := 0x7FF0000000000000

/-- The binary exponent of the least positive magnitude is the negative of this. -/
def unitExponent : Nat := 1074

/-- The magnitude of a rank in units of the least positive magnitude: the low 52 bits of
a rank are a fraction, the bits above it an exponent, and a rank whose exponent is not
zero has one implicit leading bit. -/
def unitsOfRank (rank : Nat) : Nat :=
  if rank < Nat.pow 2 52 then rank
  else (Nat.pow 2 52 + rank % Nat.pow 2 52) * Nat.pow 2 (rank / Nat.pow 2 52 - 1)

/-- The quotient rounded to the nearest whole number, a tie to the even one. -/
def roundDiv (num den : Nat) : Nat :=
  let quotient := num / den
  let twice := 2 * (num % den)
  if twice < den || (twice == den && quotient % 2 == 0) then quotient else quotient + 1

/-- The rank nearest to `num / den` units, a tie to the even rank. The quotient keeps 53
significant bits; a carry into the next power of two lands on the right rank by itself. -/
def rankOfRatio (num den : Nat) : Nat :=
  let spare := (num / den).log2 - 52
  spare * Nat.pow 2 52 + roundDiv num (den * Nat.pow 2 spare)

/-- A floating-point number: not-a-number, or a sign and the rank of the magnitude. -/
inductive Double where
  | nan
  | ranked (negative : Bool) (rank : Fin (infinityRank + 1))
deriving DecidableEq, Repr

namespace Double

/-- The number with a sign and a rank; a rank beyond infinity is infinity. -/
def ofRank (negative : Bool) (rank : Nat) : Double :=
  .ranked negative ⟨min rank infinityRank, Nat.lt_succ_of_le (Nat.min_le_right _ _)⟩

/-- The number nearest to `num / den` units with the given sign. -/
def ofUnits (negative : Bool) (num den : Nat) : Double :=
  ofRank negative (rankOfRatio num den)

def zero : Double := ofRank false 0

instance : Inhabited Double := ⟨zero⟩

def infinity (negative : Bool) : Double := ofRank negative infinityRank

/-- Neither infinite nor not-a-number. -/
def isFinite : Double → Bool
  | .nan => false
  | .ranked _ rank => rank.val < infinityRank

/-- Zero of either sign. -/
def isZero : Double → Bool
  | .nan => false
  | .ranked _ rank => rank.val == 0

def neg : Double → Double
  | .nan => .nan
  | .ranked negative rank => .ranked (!negative) rank

/-- The rank with the sign of the number: both zeros are zero. -/
def signedRank? : Double → Option Int
  | .nan => none
  | .ranked negative rank => some (if negative then -(rank.val : Int) else rank.val)

/-- The order of numbers; not-a-number compares with nothing. -/
def compare? (a b : Double) : Option Ordering := do
  let i ← a.signedRank?
  let j ← b.signedRank?
  return compare i j

/-- The signed number of units of a finite number. -/
def units? : Double → Option Int
  | .nan => none
  | .ranked negative rank =>
    if rank.val < infinityRank then
      some (if negative then -(unitsOfRank rank : Int) else unitsOfRank rank)
    else none

/-- The number nearest to an integer. -/
def ofInt (i : Int) : Double :=
  ofUnits (i < 0) (i.natAbs * Nat.pow 2 unitExponent) 1

/-- The number nearest to a natural number. -/
def ofNat (n : Nat) : Double :=
  ofInt n

/-- The integer that the number is, if it has no fraction and is finite. -/
def toInt? (x : Double) : Option Int := do
  let units ← x.units?
  let one : Int := Nat.pow 2 unitExponent
  if units % one = 0 then some (units / one) else none

/-- The sum, rounded once. Opposite infinities have none, and an exact zero is negative
only as the sum of two negative zeros. -/
def add : Double → Double → Double
  | .nan, _ => .nan
  | _, .nan => .nan
  | .ranked s p, .ranked t q =>
    if p.val = infinityRank then
      if q.val = infinityRank && s != t then .nan else .ranked s p
    else if q.val = infinityRank then .ranked t q
    else
      let a : Int := if s then -(unitsOfRank p : Int) else unitsOfRank p
      let b : Int := if t then -(unitsOfRank q : Int) else unitsOfRank q
      let sum := a + b
      if sum = 0 then ofRank (s && t) 0 else ofUnits (sum < 0) sum.natAbs 1

/-- The product, rounded once. -/
def mul : Double → Double → Double
  | .nan, _ => .nan
  | _, .nan => .nan
  | .ranked s p, .ranked t q =>
    if p.val = infinityRank || q.val = infinityRank then
      if p.val = 0 || q.val = 0 then .nan else infinity (s != t)
    else ofUnits (s != t) (unitsOfRank p * unitsOfRank q) (Nat.pow 2 unitExponent)

/-- The quotient, rounded once. -/
def div : Double → Double → Double
  | .nan, _ => .nan
  | _, .nan => .nan
  | .ranked s p, .ranked t q =>
    if p.val = infinityRank then
      if q.val = infinityRank then .nan else infinity (s != t)
    else if q.val = infinityRank then ofRank (s != t) 0
    else if q.val = 0 then
      if p.val = 0 then .nan else infinity (s != t)
    else ofUnits (s != t) (unitsOfRank p * Nat.pow 2 unitExponent) (unitsOfRank q)

/-- The number nearest to ten to the given power. -/
def powTen (exponent : Nat) : Double :=
  ofUnits false (Nat.pow 10 exponent * Nat.pow 2 unitExponent) 1

@[simp] theorem compare?_nan_left (b : Double) : compare? .nan b = none := rfl

@[simp] theorem compare?_nan_right (a : Double) : compare? a .nan = none := by
  cases a <;> simp [compare?, signedRank?]

/-- A number that is not not-a-number equals itself in the order. -/
theorem compare?_self {a : Double} (h : a ≠ .nan) : compare? a a = some .eq := by
  cases a with
  | nan => exact absurd rfl h
  | ranked s p => simp [compare?, signedRank?]

end Double

end Criteria
