import Criteria.Proofs.Double.Shortest

/-!
# Numbers midway between two shortest decimals

The search for the shortest decimal of a number leaves a choice only where the number is midway
between two neighbours on the first grid that has a point near enough. The neighbours have equally
many digits then, and neither of them ends in a zero.

## Main definitions

- `pointBelow`: the point of a grid below a magnitude
- `Midway`: a magnitude in the middle of two points of a grid that both read back as it

## Main statements

- `firstGridPoint_tie`: a choice between the two comes from the first grid with a point
- `shortestOfRank_tie`: the two shortest decimals of a magnitude, if there are two
-/

namespace Criteria

section Grid

variable {tie : DecimalTie} {closed : Bool} {low value high : Nat} {exponent : Int}

/-- The point of a grid below a magnitude, as the multiple of the power of ten. -/
def pointBelow (value : Nat) (exponent : Int) : Nat :=
  value * gridScale exponent / gridStep exponent

/-- A magnitude is in the middle of two points of a grid, of which the one below is even, and both
of them read back as the magnitude. -/
structure Midway (closed : Bool) (low value high : Nat) (exponent : Int) : Prop where
  even : pointBelow value exponent % 2 = 0
  below : isInside closed low high exponent (pointBelow value exponent) = true
  above : isInside closed low high exponent (pointBelow value exponent + 1) = true
  middle : 2 * (value * gridScale exponent) =
    (2 * pointBelow value exponent + 1) * gridStep exponent

/-- The one of the two points around a magnitude that is taken if both read back as it. -/
def nearerPoint (tie : DecimalTie) (value : Nat) (exponent : Int) : Nat :=
  let below := pointBelow value exponent
  let down := value * gridScale exponent - below * gridStep exponent
  let up := (below + 1) * gridStep exponent - value * gridScale exponent
  let takeAbove : Bool :=
    if up = down then
      match tie with
      | .even => below % 2 != 0
      | .up => true
    else up < down
  if takeAbove then below + 1 else below

theorem gridPoint?_eq (tie : DecimalTie) (closed : Bool) (low value high : Nat) (exponent : Int) :
    gridPoint? tie closed low value high exponent =
      match isInside closed low high exponent (pointBelow value exponent),
        isInside closed low high exponent (pointBelow value exponent + 1) with
      | false, false => none
      | true, false => some ⟨pointBelow value exponent, exponent⟩
      | false, true => some ⟨pointBelow value exponent + 1, exponent⟩
      | true, true => some ⟨nearerPoint tie value exponent, exponent⟩ :=
  rfl

/-- Which points of a grid are looked at does not depend on the choice between them. -/
theorem gridPoint?_eq_none_iff : gridPoint? tie closed low value high exponent = none ↔
    isInside closed low high exponent (pointBelow value exponent) = false ∧
      isInside closed low high exponent (pointBelow value exponent + 1) = false := by
  rw [gridPoint?_eq]
  cases isInside closed low high exponent (pointBelow value exponent) <;>
    cases isInside closed low high exponent (pointBelow value exponent + 1) <;> simp

theorem pointBelow_mul_le (value : Nat) (exponent : Int) :
    pointBelow value exponent * gridStep exponent ≤ value * gridScale exponent :=
  Nat.div_mul_le_self _ _

theorem lt_pointBelow_succ_mul (value : Nat) (exponent : Int) :
    value * gridScale exponent < (pointBelow value exponent + 1) * gridStep exponent :=
  (Nat.div_lt_iff_lt_mul (gridStep_pos exponent)).mp (Nat.lt_succ_self _)

/-- In the middle of two points it depends on the choice which is taken. -/
theorem Midway.gridPoint?_eq (h : Midway closed low value high exponent) :
    gridPoint? .even closed low value high exponent = some ⟨pointBelow value exponent, exponent⟩ ∧
      gridPoint? .up closed low value high exponent =
        some ⟨pointBelow value exponent + 1, exponent⟩ := by
  have hbelow := pointBelow_mul_le value exponent
  have hmiddle := h.middle
  have hsame : (pointBelow value exponent + 1) * gridStep exponent - value * gridScale exponent =
      value * gridScale exponent - pointBelow value exponent * gridStep exponent := by
    rw [Nat.add_mul, Nat.mul_assoc, Nat.one_mul] at hmiddle
    rw [Nat.succ_mul]
    omega
  rw [Criteria.gridPoint?_eq, Criteria.gridPoint?_eq, h.below, h.above]
  simp [nearerPoint, hsame, h.even]

/-- Elsewhere it does not. -/
theorem gridPoint?_eq_of_not_midway (h : ¬ Midway closed low value high exponent) :
    gridPoint? .even closed low value high exponent =
      gridPoint? .up closed low value high exponent := by
  rw [gridPoint?_eq, gridPoint?_eq]
  cases hbelow : isInside closed low high exponent (pointBelow value exponent) with
  | false => cases isInside closed low high exponent (pointBelow value exponent + 1) <;> rfl
  | true =>
    cases habove : isInside closed low high exponent (pointBelow value exponent + 1) with
    | false => rfl
    | true =>
      have hle := pointBelow_mul_le value exponent
      have hlt := lt_pointBelow_succ_mul value exponent
      simp only [nearerPoint]
      by_cases hsame : (pointBelow value exponent + 1) * gridStep exponent -
          value * gridScale exponent =
            value * gridScale exponent - pointBelow value exponent * gridStep exponent
      · have hodd : pointBelow value exponent % 2 ≠ 0 := by
          intro heven
          refine h ⟨heven, hbelow, habove, ?_⟩
          rw [Nat.add_mul, Nat.mul_assoc, Nat.one_mul]
          rw [Nat.succ_mul] at hsame hlt
          omega
        simp [hsame, hodd]
      · simp [hsame]

/-- The search with one choice and with the other ends in the same place, or it ends at the first
grid with a point for both, and the magnitude is in the middle of two points of that. The
induction is on the number of grids that are left. -/
theorem firstGridPoint_tie (closed : Bool) (low value high : Nat) (exponent : Int) (fuel : Nat) :
    firstGridPoint .even closed low value high exponent fuel =
      firstGridPoint .up closed low value high exponent fuel ∨
    ∃ k : Nat, (∀ j : Nat, j < k →
        gridPoint? .even closed low value high (exponent - j) = none) ∧
      Midway closed low value high (exponent - k) ∧
      firstGridPoint .even closed low value high exponent fuel =
        ⟨pointBelow value (exponent - k), exponent - k⟩ ∧
      firstGridPoint .up closed low value high exponent fuel =
        ⟨pointBelow value (exponent - k) + 1, exponent - k⟩ := by
  induction fuel generalizing exponent with
  | zero => exact .inl rfl
  | succ fuel ih =>
    by_cases hmidway : Midway closed low value high exponent
    · obtain ⟨heven, hup⟩ := hmidway.gridPoint?_eq
      refine .inr ⟨0, nofun, ?_⟩
      rw [firstGridPoint, firstGridPoint, heven, hup]
      simpa using hmidway
    · have hsame := gridPoint?_eq_of_not_midway hmidway
      rw [firstGridPoint, firstGridPoint, ← hsame]
      cases hpoint : gridPoint? .even closed low value high exponent with
      | some d => exact .inl rfl
      | none =>
        rcases ih (exponent - 1) with heq | ⟨k, hnone, hrest⟩
        · exact .inl heq
        · have hnext (j : Nat) : exponent - ((j + 1 : Nat) : Int) = exponent - 1 - j := by omega
          refine .inr ⟨k + 1, fun j hj => ?_, by rw [hnext]; exact hrest⟩
          cases j with
          | zero => simpa using hpoint
          | succ j =>
            rw [hnext]
            exact hnone j (by omega)

theorem gridScale_mul_gridStep (exponent : Int) :
    gridScale exponent * gridStep (exponent + 1) =
      10 * gridScale (exponent + 1) * gridStep exponent := by
  have hpow (base n : Nat) : Nat.pow base n = base ^ n := rfl
  unfold gridScale gridStep
  rw [hpow, hpow, hpow, hpow, hpow]
  generalize 2 ^ (unitExponent + 1) = unit
  rcases lt_or_ge exponent 0 with hneg | hpos
  · obtain ⟨n, hn⟩ := Int.eq_ofNat_of_zero_le (show 0 ≤ -(exponent + 1) by omega)
    have hplaces : (-exponent).toNat = n + 1 := by omega
    rw [if_pos hneg, if_pos hneg, hplaces]
    by_cases hnext : exponent + 1 < 0
    · rw [if_pos hnext, if_pos hnext, hn, Int.toNat_natCast]
      ring
    · obtain rfl : n = 0 := by omega
      rw [if_neg hnext, if_neg hnext, show (exponent + 1).toNat = 0 by omega]
      ring
  · have hnext : ¬ exponent + 1 < 0 := by omega
    have hplaces : (exponent + 1).toNat = exponent.toNat + 1 := by omega
    rw [if_neg (not_lt.mpr hpos), if_neg (not_lt.mpr hpos), if_neg hnext, if_neg hnext, hplaces]
    ring

/-- The digits on a grid are those on the next finer one without the last. -/
theorem pointBelow_succ (value : Nat) (exponent : Int) :
    pointBelow value (exponent + 1) = pointBelow value exponent / 10 := by
  have hstep := gridStep_pos exponent
  have hstep' := gridStep_pos (exponent + 1)
  have hcross := gridScale_mul_gridStep exponent
  unfold pointBelow
  generalize gridScale exponent = scale at hcross ⊢
  generalize gridStep exponent = step at hcross hstep ⊢
  generalize gridScale (exponent + 1) = scale' at hcross ⊢
  generalize gridStep (exponent + 1) = step' at hcross hstep' ⊢
  calc value * scale' / step'
      = value * scale' * (step * 10) / (step' * (step * 10)) :=
        (Nat.mul_div_mul_right _ _ (by omega)).symm
    _ = value * scale * step' / (step * 10 * step') := by
        congr 1
        · rw [Nat.mul_assoc value scale, hcross]
          ring
        · ring
    _ = value * scale / step / 10 := by
        rw [Nat.mul_div_mul_right _ _ hstep', Nat.div_div_eq_div_mul]

theorem inHalves_zpow_mul_gridScale (exponent : Int) :
    inHalves (10 ^ exponent) * gridScale exponent = gridStep exponent := by
  simpa [Decimal.value] using inHalves_mul_gridScale 1 exponent

/-- No digit is left on a grid whose steps are greater than the magnitude. -/
theorem pointBelow_eq_zero_iff :
    pointBelow value exponent = 0 ↔ (value : ℚ) < inHalves (10 ^ exponent) := by
  have hscale : (0 : ℚ) < gridScale exponent := by exact_mod_cast gridScale_pos exponent
  rw [← mul_lt_mul_iff_of_pos_right hscale, inHalves_zpow_mul_gridScale, pointBelow,
    Nat.div_eq_zero_iff_lt (gridStep_pos exponent)]
  norm_cast

/-- A ratio is less than the power of ten after its first digit. -/
theorem lt_zpow_length_mul {num den scale places : Nat} (hden : 0 < den)
    (hscale : scale = Nat.pow 10 places) :
    (num : ℚ) < (10 : ℚ) ^ (((decimalDigits (num * scale / den)).length : Int) - places) * den := by
  have hlength : 0 < (decimalDigits (num * scale / den)).length := Nat.length_toDigits_pos
  have hlt : num * scale / den < 10 ^ (decimalDigits (num * scale / den)).length :=
    (Nat.length_toDigits_le_iff (by decide) hlength).mp le_rfl
  rw [Nat.div_lt_iff_lt_mul hden] at hlt
  generalize (decimalDigits (num * scale / den)).length = length at hlt ⊢
  rw [zpow_sub₀ (by norm_num), zpow_natCast, zpow_natCast, div_mul_eq_mul_div,
    lt_div_iff₀ (by positivity)]
  rw [hscale, Nat.pow_eq] at hlt
  exact_mod_cast hlt

theorem lt_inHalves_leadingExponent_succ (value : Nat) :
    (value : ℚ) < inHalves (10 ^ (leadingExponent value + 1)) := by
  have htwo (n : Nat) : Nat.pow 2 n = 2 ^ n := rfl
  obtain ⟨places, scale, unit, hplaces, hscale, hunit, hlead⟩ : ∃ places scale unit,
      places = 400 ∧ scale = Nat.pow 10 places ∧ unit = Nat.pow 2 (unitExponent + 1) ∧
      leadingExponent value = ((decimalDigits (value * scale / unit)).length : Int) - 401 :=
    ⟨400, _, _, rfl, rfl, rfl, rfl⟩
  have hpos : 0 < unit := by
    rw [hunit]
    generalize unitExponent + 1 = bits
    exact Nat.two_pow_pos bits
  have hexponent : leadingExponent value + 1 =
      ((decimalDigits (value * scale / unit)).length : Int) - places := by omega
  rw [inHalves, hexponent, ← htwo, ← hunit]
  exact lt_zpow_length_mul hpos hscale

/-- The first digit of a magnitude is on the grid of its leading exponent. -/
theorem pointBelow_leadingExponent (hpos : 0 < value) :
    0 < pointBelow value (leadingExponent value) ∧
      pointBelow value (leadingExponent value) < 10 := by
  have hbelow : pointBelow value (leadingExponent value) ≠ 0 :=
    mt pointBelow_eq_zero_iff.mp (not_lt.mpr (inHalves_leadingExponent_le hpos))
  have hnext := pointBelow_eq_zero_iff.mpr (lt_inHalves_leadingExponent_succ value)
  rw [pointBelow_succ] at hnext
  omega

theorem isInside_mul_ten (point : Nat) :
    isInside closed low high exponent (point * 10) =
      isInside closed low high (exponent + 1) point := by
  have hvalue : Decimal.value ⟨point * 10, exponent⟩ = Decimal.value ⟨point, exponent + 1⟩ := by
    rw [Decimal.value, Decimal.value, zpow_add_one₀ (by norm_num)]
    push_cast
    ring
  rw [Bool.eq_iff_iff, isInside_iff, isInside_iff, hvalue]

/-- On the first grid with a point the point below a magnitude in the middle has no zero at its
end: without the zero it would be on the grid before. -/
theorem Midway.not_dvd {k : Nat} (hpos : 0 < value)
    (h : Midway closed low value high (leadingExponent value - k))
    (hnone : ∀ j : Nat, j < k →
      gridPoint? .even closed low value high (leadingExponent value - j) = none) :
    pointBelow value (leadingExponent value - k) % 10 ≠ 0 := by
  intro hzero
  cases k with
  | zero =>
    rw [Nat.cast_zero, sub_zero] at hzero
    have hdigit := pointBelow_leadingExponent hpos
    omega
  | succ k =>
    have hgrid : leadingExponent value - (k : Int) =
        leadingExponent value - ((k + 1 : Nat) : Int) + 1 := by omega
    have hout := (gridPoint?_eq_none_iff.mp (hnone k (Nat.lt_succ_self k))).1
    have hmul : pointBelow value (leadingExponent value - ((k + 1 : Nat) : Int)) =
        pointBelow value (leadingExponent value - k) * 10 := by
      rw [hgrid, pointBelow_succ]
      omega
    have hin := h.below
    rw [hmul, isInside_mul_ten, ← hgrid, hout] at hin
    cases hin

theorem Midway.inHalves_eq (h : Midway closed low value high exponent) :
    inHalves (Decimal.value ⟨pointBelow value exponent, exponent⟩) +
      inHalves (Decimal.value ⟨pointBelow value exponent + 1, exponent⟩) = 2 * value := by
  have hscale : (gridScale exponent : ℚ) ≠ 0 := by
    exact_mod_cast (gridScale_pos exponent).ne'
  refine mul_right_cancel₀ hscale ?_
  rw [add_mul, inHalves_mul_gridScale, inHalves_mul_gridScale]
  have hmiddle := h.middle
  have hsum : pointBelow value exponent * gridStep exponent +
      (pointBelow value exponent + 1) * gridStep exponent = 2 * (value * gridScale exponent) := by
    rw [hmiddle]
    ring
  rw [mul_assoc]
  exact_mod_cast hsum

end Grid

namespace Decimal

/-- Nothing is moved if there is no zero at the end. -/
theorem strip_of_not_dvd {d : Decimal} (h : d.digits % 10 ≠ 0) (fuel : Nat) :
    d.strip fuel = d := by
  cases fuel with
  | zero => rfl
  | succ fuel => simp [strip, h]

end Decimal

/-- A magnitude has one shortest decimal, or else two neighbours of equal length, and it is in the
middle of them. -/
theorem shortestOfRank_tie {rank : Nat} (h : 0 < rank) :
    shortestOfRank .even rank = shortestOfRank .up rank ∨
    ∃ digits exponent, shortestOfRank .even rank = ⟨digits, exponent⟩ ∧
      shortestOfRank .up rank = ⟨digits + 1, exponent⟩ ∧ digits % 2 = 0 ∧ digits % 10 ≠ 0 ∧
      inHalves (Decimal.value ⟨digits, exponent⟩) +
        inHalves (Decimal.value ⟨digits + 1, exponent⟩) = 4 * unitsOfRank rank := by
  have hpos : 0 < 2 * unitsOfRank rank := Nat.mul_pos two_pos (unitsOfRank_pos h)
  have hsearch := firstGridPoint_tie (rank % 2 == 0) (unitsOfRank (rank - 1) + unitsOfRank rank)
    (2 * unitsOfRank rank) (unitsOfRank rank + unitsOfRank (rank + 1))
    (leadingExponent (2 * unitsOfRank rank)) 18
  rcases hsearch with heq | ⟨k, hnone, hmidway, heven, hup⟩
  · left
    rw [shortestOfRank, shortestOfRank, heq]
  · right
    have hdigits := hmidway.not_dvd hpos hnone
    have hparity := hmidway.even
    have hmiddle := hmidway.inHalves_eq
    refine ⟨pointBelow (2 * unitsOfRank rank) (leadingExponent (2 * unitsOfRank rank) - k),
      leadingExponent (2 * unitsOfRank rank) - k, ?_, ?_, hparity, hdigits, ?_⟩
    · rw [shortestOfRank, heven, Decimal.strip_of_not_dvd hdigits]
    · rw [shortestOfRank, hup, Decimal.strip_of_not_dvd (show _ % 10 ≠ 0 by dsimp only; omega)]
    · rw [hmiddle]
      push_cast
      ring

end Criteria
