import Mathlib.Algebra.Ring.Int.Defs
import Mathlib.Data.List.Induction
import Criteria.Aggregate
import Criteria.Proofs.Double.Integers

/-!
# Sums of integers as floating-point numbers

An integer that is a floating-point number has all of its units, so two of them are added without
loss and only the sum is rounded. Adding up integers one after the other therefore rounds nothing
but the last sum, as long as the integers and the sums before that one are floating-point numbers.

## Main definitions

- `Double.IsExact`: an integer that is a floating-point number
- `Double.StaysExact`: integers that can be added up with no rounding but that of the last sum

## Main statements

- `Double.isExact_iff`: the units of an integer that is a floating-point number
- `Double.isExact_of_natAbs_le`: the integers up to `2 ^ 53` are floating-point numbers
- `Double.add_ofInt`: their sums are rounded once
- `Double.sumOf_ofInt`: so is the sum of several of them
-/

namespace Criteria.Double

/-- The integer is a floating-point number. -/
def IsExact (i : Int) : Prop :=
  (ofInt i).toInt? = some i

instance : DecidablePred IsExact := fun i =>
  inferInstanceAs (Decidable ((ofInt i).toInt? = some i))

/-- The integers, and the sums of the first of them but for the sum of all, are floating-point
numbers. -/
def StaysExact (integers : List Int) : Prop :=
  (∀ i ∈ integers, IsExact i) ∧ ∀ n < integers.length, IsExact (integers.take n).sum

instance : DecidablePred StaysExact := fun integers =>
  inferInstanceAs (Decidable (_ ∧ ∀ n < integers.length, IsExact (integers.take n).sum))

/-- A number is an integer if it has the units of that integer. -/
theorem toInt?_eq_some_iff {x : Double} {i : Int} :
    x.toInt? = some i ↔ x.units? = some (i * 2 ^ unitExponent) := by
  have hpos (exponent : Nat) : (0 : Int) < 2 ^ exponent := Int.pow_pos (by decide)
  have hone (exponent : Nat) : ((Nat.pow 2 exponent : Nat) : Int) = 2 ^ exponent :=
    Int.natCast_pow 2 exponent
  cases hunits : x.units? with
  | none =>
    have hwhole : x.toInt? = none := by
      rw [toInt?, hunits]
      rfl
    exact iff_of_false (by rw [hwhole]; nofun) nofun
  | some units =>
    simp only [toInt?, hunits, hone, Option.bind_eq_bind, Option.bind_some, Option.some_inj]
    constructor
    · intro h
      split at h
      case isTrue hmod =>
        rw [← Option.some.inj h]
        exact (Int.ediv_mul_cancel (Int.dvd_of_emod_eq_zero hmod)).symm
      case isFalse => cases h
    · rintro rfl
      rw [if_pos (Int.mul_emod_left _ _), Int.mul_ediv_cancel _ (Int.ne_of_gt (hpos _))]

/-- The units of an integer, as those of its magnitude. -/
theorem units?_ofInt (i : Int) : (ofInt i).units? =
    if magnitudeRank i.natAbs < infinityRank then
      some (if i < 0 then -(unitsOfRank (magnitudeRank i.natAbs) : Int)
        else unitsOfRank (magnitudeRank i.natAbs))
    else none := by
  have hle : magnitudeRank i.natAbs ≤ infinityRank := Nat.min_le_right _ _
  simp only [ofInt_eq, ofRank, units?, Nat.min_eq_left hle, decide_eq_true_eq]

/-- An integer is a floating-point number if its magnitude is finite and keeps its units. -/
theorem isExact_iff {i : Int} : IsExact i ↔ magnitudeRank i.natAbs < infinityRank ∧
    unitsOfRank (magnitudeRank i.natAbs) = i.natAbs * 2 ^ unitExponent := by
  rw [IsExact, toInt?_eq_some_iff, units?_ofInt]
  by_cases hfinite : magnitudeRank i.natAbs < infinityRank
  · have hcast : (unitsOfRank (magnitudeRank i.natAbs) = i.natAbs * 2 ^ unitExponent) ↔
        ((unitsOfRank (magnitudeRank i.natAbs) : Int) = i.natAbs * 2 ^ unitExponent) := by
      norm_cast
    rw [if_pos hfinite, Option.some_inj, hcast]
    simp only [hfinite, true_and]
    generalize (unitsOfRank (magnitudeRank i.natAbs) : Int) = units
    generalize (2 : Int) ^ unitExponent = one
    by_cases hsign : i < 0
    · have habs : (i.natAbs : Int) = -i := by omega
      rw [if_pos hsign, habs, Int.neg_mul, Int.neg_eq_comm, eq_comm]
    · have habs : (i.natAbs : Int) = i := by omega
      rw [if_neg hsign, habs]
  · rw [if_neg hfinite]
    simp [hfinite]

theorem isExact_of_natAbs_le {i : Int} (h : i.natAbs ≤ 2 ^ 53) : IsExact i := by
  have hfinite : magnitudeRank (2 ^ 53) < infinityRank := by decide +kernel
  exact isExact_iff.mpr
    ⟨Nat.lt_of_le_of_lt (magnitudeRank_mono h) hfinite, unitsOfRank_magnitudeRank h⟩

theorem IsExact.units? {i : Int} (h : IsExact i) :
    (ofInt i).units? = some (i * 2 ^ unitExponent) :=
  toInt?_eq_some_iff.mp h

/-- The sign of a number, which zero has as well. -/
def isNegative : Double → Bool
  | .nan => false
  | .ranked negative _ => negative

theorem isNegative_ofInt (i : Int) : (ofInt i).isNegative = decide (i < 0) :=
  rfl

theorem exists_ranked_of_units? {x : Double} {a : Int} (h : x.units? = some a) :
    ∃ negative rank, x = .ranked negative rank ∧ rank.val ≠ infinityRank ∧
      (if negative then -(unitsOfRank rank : Int) else unitsOfRank rank) = a := by
  cases x with
  | nan => cases h
  | ranked negative rank =>
    rw [units?] at h
    split at h
    case isTrue hfinite => exact ⟨negative, rank, rfl, Nat.ne_of_lt hfinite, Option.some.inj h⟩
    case isFalse => cases h

/-- Two finite numbers are added in whole units, and the sum is rounded once. A sum of nothing is
negative only if both numbers are. -/
theorem add_of_units? {x y : Double} {a b : Int} (hx : x.units? = some a)
    (hy : y.units? = some b) :
    x.add y = if a + b = 0 then ofRank (x.isNegative && y.isNegative) 0
      else ofUnits (a + b < 0) (a + b).natAbs 1 := by
  obtain ⟨s, p, rfl, hp, ha⟩ := exists_ranked_of_units? hx
  obtain ⟨t, q, rfl, hq, hb⟩ := exists_ranked_of_units? hy
  simp only [add, if_neg hp, if_neg hq, ha, hb, isNegative]

/-- Two integers that are floating-point numbers are added like integers, and the sum is rounded
once. -/
theorem add_ofInt {i j : Int} (hi : IsExact i) (hj : IsExact j) :
    (ofInt i).add (ofInt j) = ofInt (i + j) := by
  have hunit : (0 : Int) < 2 ^ unitExponent := by
    generalize unitExponent = exponent
    exact Int.pow_pos (by decide)
  rw [add_of_units? hi.units? hj.units?, ← Int.add_mul]
  by_cases hsum : i + j = 0
  · -- two integers below zero have no sum that is zero
    have hsign : ((ofInt i).isNegative && (ofInt j).isNegative) = false := by
      rw [isNegative_ofInt, isNegative_ofInt, Bool.and_eq_false_iff, decide_eq_false_iff_not,
        decide_eq_false_iff_not]
      omega
    rw [hsum, Int.zero_mul, if_pos rfl, hsign]
    decide +kernel
  · have hsign : (i + j) * 2 ^ unitExponent < 0 ↔ i + j < 0 := by
      constructor
      · intro h
        by_contra hnonneg
        have := Int.mul_nonneg (Int.not_lt.mp hnonneg) (Int.le_of_lt hunit)
        omega
      · exact fun h => Int.mul_neg_of_neg_of_pos h hunit
    have hunits : ((i + j) * 2 ^ unitExponent).natAbs =
        (i + j).natAbs * Nat.pow 2 unitExponent := by
      generalize unitExponent = exponent
      rw [Int.natAbs_mul, Int.natAbs_pow]
      rfl
    rw [if_neg (Int.mul_ne_zero hsum (Int.ne_of_gt hunit)), ofInt, hunits,
      decide_eq_decide.mpr hsign]

/-- Integers are added up with one rounding, that of their sum, if all sums before that one are
floating-point numbers. -/
theorem sumOf_ofInt {integers : List Int} (h : StaysExact integers) :
    Aggregate.sumOf (integers.map ofInt) = ofInt integers.sum := by
  induction integers using List.reverseRecOn with
  | nil => decide +kernel
  | append_singleton before last ih =>
    obtain ⟨hparts, hsums⟩ := h
    have hsums' : ∀ n ≤ before.length, IsExact (before.take n).sum := by
      intro n hn
      rw [← List.take_append_of_le_length hn]
      exact hsums n (by rw [List.length_append, List.length_singleton]; omega)
    have hbefore : StaysExact before :=
      ⟨fun i hi => hparts i (List.mem_append_left _ hi), fun n hn => hsums' n (Nat.le_of_lt hn)⟩
    have hsum : IsExact before.sum := by
      simpa using hsums' before.length (Nat.le_refl _)
    have hlast : IsExact last := hparts last (by simp)
    calc Aggregate.sumOf ((before ++ [last]).map ofInt)
        = (Aggregate.sumOf (before.map ofInt)).add (ofInt last) := by
          rw [List.map_append, Aggregate.sumOf, List.foldl_append]
          rfl
      _ = (ofInt before.sum).add (ofInt last) := by rw [ih hbefore]
      _ = ofInt (before.sum + last) := add_ofInt hsum hlast
      _ = ofInt (before ++ [last]).sum := by rw [List.sum_append, List.sum_singleton]

end Criteria.Double
