import Mathlib.Algebra.Order.Field.Power
import Mathlib.Algebra.Order.Field.Rat
import Mathlib.Order.Monotone.Basic
import Mathlib.Tactic.FieldSimp
import Mathlib.Tactic.Linarith
import Mathlib.Tactic.NormNum
import Mathlib.Tactic.Positivity
import Mathlib.Tactic.Ring
import Criteria.Proofs.Double.Integers

/-!
# Shortest decimals are close enough

The grids of the powers of ten are tried from coarse to fine. On a grid with steps that are smaller
than the distance to the next magnitude there is a point that rounds to the magnitude, and the last
of the grids is such a one: it has 17 digits after the first. So the search never runs dry, and
different magnitudes have different decimals.

## Main definitions

- `Decimal.value`: the number that a decimal is
- `RoundsTo`: the numbers that are rounded to a magnitude

## Main statements

- `unitsOfRank_succ`: the distance from a magnitude to the next
- `RoundsTo.unique`: a number is rounded to one magnitude
- `roundsTo_shortestOfRank`: the shortest decimal of a magnitude is rounded to it
-/

namespace Criteria

section Units

variable {rank : Nat}

/-- A rank that is not among the least has a fraction with the implicit bit. -/
theorem exists_quotient_of_le (h : 2 ^ 52 ≤ rank) :
    ∃ quotient, 2 ^ 52 ≤ quotient ∧ quotient < 2 ^ 53 ∧
      rank = (rank / 2 ^ 52 - 1) * 2 ^ 52 + quotient :=
  ⟨2 ^ 52 + rank % 2 ^ 52, by omega, by omega, by omega⟩

theorem unitsOfRank_of_lt (h : rank < 2 ^ 52) : unitsOfRank rank = rank :=
  if_pos h

/-- The next magnitude is away by one unit in the last place. -/
theorem unitsOfRank_succ (rank : Nat) :
    unitsOfRank (rank + 1) = unitsOfRank rank + 2 ^ (rank / 2 ^ 52 - 1) := by
  by_cases hsmall : rank < 2 ^ 52
  · have hplace : rank / 2 ^ 52 - 1 = 0 := by omega
    rw [hplace, unitsOfRank_of_lt hsmall]
    by_cases hnext : rank + 1 < 2 ^ 52
    · exact unitsOfRank_of_lt hnext
    · obtain rfl : rank = 2 ^ 52 - 1 := by omega
      decide +kernel
  · obtain ⟨quotient, hlow, hhigh, hrank⟩ := exists_quotient_of_le (Nat.le_of_not_lt hsmall)
    generalize rank / 2 ^ 52 - 1 = spare at hrank ⊢
    rw [hrank, unitsOfRank_add hlow hhigh, Nat.add_assoc]
    by_cases hnext : quotient + 1 < 2 ^ 53
    · rw [unitsOfRank_add (by omega) hnext, Nat.succ_mul]
    · -- the fraction is full, and the exponent grows
      obtain rfl : quotient = 2 ^ 53 - 1 := by omega
      have hcarry : spare * 2 ^ 52 + (2 ^ 53 - 1 + 1) = (spare + 1) * 2 ^ 52 + 2 ^ 52 := by omega
      rw [hcarry, unitsOfRank_add (by decide) (by decide), Nat.pow_succ]
      omega

/-- A magnitude has at most 53 significant bits. -/
theorem unitsOfRank_lt (rank : Nat) : unitsOfRank rank < 2 ^ 53 * 2 ^ (rank / 2 ^ 52 - 1) := by
  by_cases hsmall : rank < 2 ^ 52
  · have hplace : rank / 2 ^ 52 - 1 = 0 := by omega
    rw [hplace, unitsOfRank_of_lt hsmall]
    omega
  · obtain ⟨quotient, hlow, hhigh, hrank⟩ := exists_quotient_of_le (Nat.le_of_not_lt hsmall)
    generalize rank / 2 ^ 52 - 1 = spare at hrank ⊢
    rw [hrank, unitsOfRank_add hlow hhigh]
    exact Nat.mul_lt_mul_of_pos_right hhigh (Nat.two_pow_pos spare)

theorem unitsOfRank_strictMono : StrictMono unitsOfRank :=
  strictMono_nat_of_lt_succ fun rank => by
    rw [unitsOfRank_succ]
    exact Nat.lt_add_of_pos_right (Nat.two_pow_pos _)

theorem unitsOfRank_pos {rank : Nat} (h : 0 < rank) : 0 < unitsOfRank rank :=
  Nat.lt_of_le_of_lt (Nat.zero_le _) (unitsOfRank_strictMono h)

end Units

/-- The number that a decimal is. -/
def Decimal.value (d : Decimal) : ℚ :=
  d.digits * 10 ^ d.exponent

/-- A number counted in halves of the least positive magnitude. -/
def inHalves (x : ℚ) : ℚ :=
  x * (2 ^ (unitExponent + 1) : Nat)

/-- A number between two bounds that are counted in halves of a unit. -/
def Between (closed : Bool) (low high : Nat) (x : ℚ) : Prop :=
  if closed then (low : ℚ) ≤ inHalves x ∧ inHalves x ≤ high
  else (low : ℚ) < inHalves x ∧ inHalves x < high

/-- A number that is rounded to the magnitude of a rank: it is no further from the magnitude than
half the way to the next one on its side, where a tie goes to the even rank. -/
def RoundsTo (rank : Nat) (x : ℚ) : Prop :=
  Between (rank % 2 == 0) (unitsOfRank (rank - 1) + unitsOfRank rank)
    (unitsOfRank rank + unitsOfRank (rank + 1)) x

section Between

variable {closed : Bool} {low high : Nat} {x : ℚ}

theorem Between.le (h : Between closed low high x) :
    (low : ℚ) ≤ inHalves x ∧ inHalves x ≤ high := by
  cases closed with
  | true => exact h
  | false => exact ⟨le_of_lt h.1, le_of_lt h.2⟩

theorem between_of_lt (hlow : (low : ℚ) < inHalves x) (hhigh : inHalves x < high) :
    Between closed low high x := by
  cases closed with
  | true => exact ⟨le_of_lt hlow, le_of_lt hhigh⟩
  | false => exact ⟨hlow, hhigh⟩

/-- The bounds do not belong to an odd rank. -/
theorem RoundsTo.lt_of_odd {rank : Nat} (h : RoundsTo rank x) (hodd : rank % 2 = 1) :
    ((unitsOfRank (rank - 1) + unitsOfRank rank : Nat) : ℚ) < inHalves x ∧
      inHalves x < (unitsOfRank rank + unitsOfRank (rank + 1) : Nat) := by
  have hopen : (rank % 2 == 0) = false := by
    rw [hodd]
    rfl
  rw [RoundsTo, hopen] at h
  exact h

/-- The numbers that are rounded to a rank are not rounded to a greater one. The bound between two
neighbours belongs to that of them which is even. -/
theorem RoundsTo.not_lt {r s : Nat} (hr : RoundsTo r x) (hs : RoundsTo s x) : ¬ r < s := by
  intro hlt
  have hhigh := hr.le.2
  have hlow := hs.le.1
  have hle : unitsOfRank (s - 1) + unitsOfRank s ≤ unitsOfRank r + unitsOfRank (r + 1) := by
    exact_mod_cast hlow.trans hhigh
  have hprevious : unitsOfRank r ≤ unitsOfRank (s - 1) :=
    unitsOfRank_strictMono.monotone (by omega)
  -- only the bounds of neighbours meet
  obtain rfl : s = r + 1 := by
    by_contra hne
    have hnext : unitsOfRank (r + 1) < unitsOfRank s := unitsOfRank_strictMono (by omega)
    omega
  rcases Nat.mod_two_eq_zero_or_one r with heven | hodd
  · exact absurd hhigh (not_le.mpr (hs.lt_of_odd (by omega)).1)
  · exact absurd hlow (not_le.mpr (hr.lt_of_odd hodd).2)

/-- A number is rounded to one magnitude only. -/
theorem RoundsTo.unique {r s : Nat} (hr : RoundsTo r x) (hs : RoundsTo s x) : r = s :=
  Nat.le_antisymm (Nat.not_lt.mp (hs.not_lt hr)) (Nat.not_lt.mp (hr.not_lt hs))

end Between

section Grid

variable {tie : DecimalTie} {closed : Bool} {low value high : Nat} {exponent : Int}

/-- The factor that makes the points of a grid and the magnitudes whole numbers. -/
def gridScale (exponent : Int) : Nat :=
  if exponent < 0 then Nat.pow 10 (-exponent).toNat else 1

/-- The distance of the points of a grid, in halves of a unit and scaled. -/
def gridStep (exponent : Int) : Nat :=
  if exponent < 0 then Nat.pow 2 (unitExponent + 1)
  else Nat.pow 10 exponent.toNat * Nat.pow 2 (unitExponent + 1)

/-- A point of a grid lies between the bounds. -/
def isInside (closed : Bool) (low high : Nat) (exponent : Int) (point : Nat) : Bool :=
  let x := point * gridStep exponent
  if closed then low * gridScale exponent ≤ x && x ≤ high * gridScale exponent
  else low * gridScale exponent < x && x < high * gridScale exponent

theorem gridScale_pos (exponent : Int) : 0 < gridScale exponent := by
  unfold gridScale
  split
  · exact Nat.pow_pos (by decide)
  · exact Nat.one_pos

theorem gridStep_pos (exponent : Int) : 0 < gridStep exponent := by
  unfold gridStep
  generalize unitExponent + 1 = bits
  split
  · exact Nat.two_pow_pos bits
  · exact Nat.mul_pos (Nat.pow_pos (by decide)) (Nat.two_pow_pos bits)

/-- The points of the grid of a power of ten are its multiples. -/
theorem inHalves_mul_gridScale (point : Nat) (exponent : Int) :
    inHalves (Decimal.value ⟨point, exponent⟩) * gridScale exponent =
      (point * gridStep exponent : Nat) := by
  have hpow (base n : Nat) : Nat.pow base n = base ^ n := rfl
  rw [inHalves, Decimal.value, gridScale, gridStep, hpow, hpow, hpow]
  generalize 2 ^ (unitExponent + 1) = halves
  by_cases hneg : exponent < 0
  · obtain ⟨n, hn⟩ := Int.eq_ofNat_of_zero_le (show 0 ≤ -exponent by omega)
    have hexponent : exponent = -(n : Int) := by omega
    have hcancel : (10 : ℚ) ^ exponent * 10 ^ n = 1 := by
      rw [hexponent, zpow_neg, zpow_natCast]
      exact inv_mul_cancel₀ (by positivity)
    have htoNat : (-exponent).toNat = n := by omega
    rw [if_pos hneg, if_pos hneg, htoNat]
    push_cast
    calc (point : ℚ) * 10 ^ exponent * halves * 10 ^ n
        = point * halves * (10 ^ exponent * 10 ^ n) := by ring
      _ = point * halves := by rw [hcancel, mul_one]
  · obtain ⟨n, rfl⟩ := Int.eq_ofNat_of_zero_le (Int.not_lt.mp hneg)
    rw [if_neg hneg, if_neg hneg, Int.toNat_natCast, zpow_natCast]
    push_cast
    ring

theorem isInside_iff {point : Nat} : isInside closed low high exponent point = true ↔
    Between closed low high (Decimal.value ⟨point, exponent⟩) := by
  have hscale : (0 : ℚ) < gridScale exponent := by exact_mod_cast gridScale_pos exponent
  have hx := inHalves_mul_gridScale point exponent
  have hle (bound : Nat) : bound * gridScale exponent ≤ point * gridStep exponent ↔
      (bound : ℚ) ≤ inHalves (Decimal.value ⟨point, exponent⟩) := by
    rw [← mul_le_mul_iff_of_pos_right hscale, hx]
    norm_cast
  have hge (bound : Nat) : point * gridStep exponent ≤ bound * gridScale exponent ↔
      inHalves (Decimal.value ⟨point, exponent⟩) ≤ bound := by
    rw [← mul_le_mul_iff_of_pos_right hscale, hx]
    norm_cast
  cases closed with
  | true =>
    simp only [isInside, Between, if_true, Bool.and_eq_true, decide_eq_true_eq, hle, hge]
  | false =>
    simp only [isInside, Between, Bool.false_eq_true, if_false, Bool.and_eq_true,
      decide_eq_true_eq, ← not_le, hle, hge]

/-- A point of a grid that has been found is the one below the magnitude or the one above it, and
lies between the bounds. -/
theorem gridPoint?_eq_none_or (tie : DecimalTie) (closed : Bool) (low value high : Nat)
    (exponent : Int) :
    (gridPoint? tie closed low value high exponent = none ∧
      isInside closed low high exponent (value * gridScale exponent / gridStep exponent + 1) =
        false) ∨
    ∃ point, gridPoint? tie closed low value high exponent = some ⟨point, exponent⟩ ∧
      isInside closed low high exponent point = true := by
  have hchoice (takeAbove : Bool) {above below : Nat}
      (habove : isInside closed low high exponent above = true)
      (hbelow : isInside closed low high exponent below = true) :
      isInside closed low high exponent (if takeAbove then above else below) = true := by
    cases takeAbove <;> assumption
  unfold gridPoint?
  dsimp only
  split
  case h_1 habove => exact .inl ⟨rfl, habove⟩
  case h_2 hbelow _ => exact .inr ⟨_, rfl, hbelow⟩
  case h_3 _ habove => exact .inr ⟨_, rfl, habove⟩
  case h_4 hbelow habove => exact .inr ⟨_, rfl, hchoice _ habove hbelow⟩

/-- The point above a magnitude is no further away than a step. -/
theorem inHalves_above (value : Nat) (exponent : Int) :
    let above := value * gridScale exponent / gridStep exponent + 1
    (value : ℚ) < inHalves (Decimal.value ⟨above, exponent⟩) ∧
      inHalves (Decimal.value ⟨above, exponent⟩) ≤ value + inHalves (10 ^ exponent) := by
  intro above
  have hscale : (0 : ℚ) < gridScale exponent := by exact_mod_cast gridScale_pos exponent
  have hx := inHalves_mul_gridScale above exponent
  have hstep : inHalves (10 ^ exponent) * gridScale exponent = gridStep exponent := by
    simpa [Decimal.value] using inHalves_mul_gridScale 1 exponent
  have hlt : value * gridScale exponent < above * gridStep exponent :=
    (Nat.div_lt_iff_lt_mul (gridStep_pos exponent)).mp (Nat.lt_succ_self _)
  have hle : above * gridStep exponent ≤ value * gridScale exponent + gridStep exponent := by
    rw [Nat.succ_mul]
    exact Nat.add_le_add_right (Nat.div_mul_le_self _ _) _
  rw [← mul_lt_mul_iff_of_pos_right hscale, ← mul_le_mul_iff_of_pos_right hscale, add_mul, hx,
    hstep]
  exact ⟨by exact_mod_cast hlt, by exact_mod_cast hle⟩

/-- A grid with steps that are smaller than the distance to the upper bound has a point between the
bounds. -/
theorem gridPoint?_ne_none (hlow : low ≤ value)
    (hstep : (value : ℚ) + inHalves (10 ^ exponent) < high) :
    gridPoint? tie closed low value high exponent ≠ none := by
  intro hnone
  obtain ⟨habove, hlast⟩ := inHalves_above value exponent
  have hlow' : (low : ℚ) ≤ value := by exact_mod_cast hlow
  have hbetween : Between closed low high (Decimal.value ⟨_, exponent⟩) :=
    between_of_lt (lt_of_le_of_lt hlow' habove) (lt_of_le_of_lt hlast hstep)
  rcases gridPoint?_eq_none_or tie closed low value high exponent with
    ⟨-, hout⟩ | ⟨point, hpoint, -⟩
  · rw [isInside_iff.mpr hbetween] at hout
    cases hout
  · rw [hnone] at hpoint
    cases hpoint

/-- The search among the grids ends between the bounds if one of the grids has a point there. The
induction is on the number of grids that are left, of which the `k`-th has a point. -/
theorem between_firstGridPoint {fuel : Nat} (k : Nat) (hk : k < fuel)
    (h : gridPoint? tie closed low value high (exponent - k) ≠ none) :
    Between closed low high (firstGridPoint tie closed low value high exponent fuel).value := by
  induction fuel generalizing exponent k with
  | zero => omega
  | succ fuel ih =>
    rw [firstGridPoint]
    rcases gridPoint?_eq_none_or tie closed low value high exponent with
      ⟨hnone, -⟩ | ⟨point, hpoint, hinside⟩
    · -- then the grid that has a point is a finer one
      cases k with
      | zero => exact absurd (by simpa using hnone) h
      | succ k =>
        rw [hnone]
        refine ih k (by omega) ?_
        rwa [show exponent - 1 - (k : Int) = exponent - ((k + 1 : Nat) : Int) by omega]
    · rw [hpoint]
      exact isInside_iff.mp hinside

theorem pow_length_decimalDigits_le {n : Nat} (h : 0 < n) :
    10 ^ ((decimalDigits n).length - 1) ≤ n := by
  have hpos : 0 < (decimalDigits n).length := Nat.length_toDigits_pos
  by_contra hlt
  by_cases hone : (decimalDigits n).length - 1 = 0
  · rw [hone] at hlt
    omega
  · have hle : (decimalDigits n).length ≤ (decimalDigits n).length - 1 :=
      (Nat.length_toDigits_le_iff (by decide) (Nat.pos_of_ne_zero hone)).mpr (Nat.not_le.mp hlt)
    omega

/-- The first digit of a ratio can be told from its whole part, if it is scaled far enough to have
one. -/
theorem zpow_length_mul_le {num den places : Nat} (hnum : 0 < num) (hden : 0 < den)
    (hfits : den ≤ Nat.pow 10 places) :
    (10 : ℚ) ^ (((decimalDigits (num * Nat.pow 10 places / den)).length : Int) -
      (places + 1 : Nat)) * den ≤ num := by
  obtain ⟨scale, hscale⟩ : ∃ scale, scale = 10 ^ places := ⟨_, rfl⟩
  rw [Nat.pow_eq, ← hscale] at hfits ⊢
  have hwhole : 0 < num * scale / den :=
    Nat.div_pos (Nat.le_trans hfits (Nat.le_mul_of_pos_left _ hnum)) hden
  have hlead := pow_length_decimalDigits_le hwhole
  have hlength : 0 < (decimalDigits (num * scale / den)).length := Nat.length_toDigits_pos
  have hmul : 10 ^ ((decimalDigits (num * scale / den)).length - 1) * den ≤ num * scale :=
    Nat.le_trans (Nat.mul_le_mul_right den hlead) (Nat.div_mul_le_self _ _)
  generalize (decimalDigits (num * scale / den)).length = length at hlength hmul ⊢
  have hexponent : (length : Int) - (places + 1 : Nat) = ((length - 1 : Nat) : Int) - places := by
    omega
  rw [hexponent, zpow_sub₀ (by norm_num), zpow_natCast, zpow_natCast, div_mul_eq_mul_div,
    div_le_iff₀ (by positivity)]
  rw [hscale] at hmul
  exact_mod_cast hmul

/-- The power of ten of the first digit is no greater than the number. -/
theorem inHalves_leadingExponent_le {value : Nat} (hpos : 0 < value) :
    inHalves (10 ^ leadingExponent value) ≤ value := by
  have htwo (n : Nat) : Nat.pow 2 n = 2 ^ n := rfl
  have hhalves : 0 < 2 ^ (unitExponent + 1) := Nat.two_pow_pos _
  have hfits : 2 ^ (unitExponent + 1) ≤ Nat.pow 10 400 := by decide +kernel
  have hlead := zpow_length_mul_le hpos hhalves hfits
  rw [inHalves, leadingExponent, htwo]
  exact hlead

end Grid

/-- Factors of ten are moved within the number. -/
theorem Decimal.value_strip (d : Decimal) (fuel : Nat) : (d.strip fuel).value = d.value := by
  induction fuel generalizing d with
  | zero => rfl
  | succ fuel ih =>
    rw [strip]
    split
    case isTrue h =>
      rw [Bool.and_eq_true, decide_eq_true_eq] at h
      have hdigits : d.digits = d.digits / 10 * 10 := by omega
      rw [ih, value, value, zpow_add_one₀ (by norm_num)]
      nth_rewrite 2 [hdigits]
      push_cast
      ring
    case isFalse => rfl

/-- The last of the grids is fine enough: it has 17 digits after the first, and a magnitude has
fewer than `2 ^ 53` units in the last place. -/
theorem inHalves_lastGrid_lt {rank : Nat} (h : 0 < rank) :
    inHalves (10 ^ (leadingExponent (2 * unitsOfRank rank) - 17)) <
      (2 ^ (rank / 2 ^ 52 - 1) : Nat) := by
  have hpos := unitsOfRank_pos h
  have hlead := inHalves_leadingExponent_le (Nat.mul_pos two_pos hpos)
  have hbits : (unitsOfRank rank : ℚ) < 2 ^ 53 * (2 ^ (rank / 2 ^ 52 - 1) : Nat) := by
    exact_mod_cast unitsOfRank_lt rank
  have hulp : (0 : ℚ) < (2 ^ (rank / 2 ^ 52 - 1) : Nat) := by positivity
  have hsplit (e : Int) : inHalves (10 ^ (e - 17)) * 10 ^ 17 = inHalves (10 ^ e) := by
    have hpow : (10 : ℚ) ^ (e - 17) * 10 ^ 17 = 10 ^ e := by
      rw [← zpow_natCast (10 : ℚ) 17, ← zpow_add₀ (by norm_num)]
      congr 1
      omega
    rw [inHalves, inHalves, mul_right_comm, hpow]
  rw [← hsplit] at hlead
  push_cast at hlead hbits hulp ⊢
  linarith

/-- The last of the grids has a point that is rounded to the magnitude. -/
theorem gridPoint?_lastGrid_ne_none {rank : Nat} (tie : DecimalTie) (closed : Bool) (h : 0 < rank) :
    gridPoint? tie closed (unitsOfRank (rank - 1) + unitsOfRank rank) (2 * unitsOfRank rank)
      (unitsOfRank rank + unitsOfRank (rank + 1))
      (leadingExponent (2 * unitsOfRank rank) - (17 : Nat)) ≠ none := by
  have hlow : unitsOfRank (rank - 1) + unitsOfRank rank ≤ 2 * unitsOfRank rank := by
    have := unitsOfRank_strictMono.monotone (show rank - 1 ≤ rank by omega)
    omega
  have hstep : ((2 * unitsOfRank rank : Nat) : ℚ) +
      inHalves (10 ^ (leadingExponent (2 * unitsOfRank rank) - (17 : Nat))) <
        (unitsOfRank rank + unitsOfRank (rank + 1) : Nat) := by
    rw [unitsOfRank_succ]
    have := inHalves_lastGrid_lt h
    push_cast at this ⊢
    linarith
  exact gridPoint?_ne_none hlow hstep

/-- The shortest decimal of a magnitude is rounded to that magnitude. -/
theorem roundsTo_shortestOfRank {rank : Nat} (tie : DecimalTie) (h : 0 < rank) :
    RoundsTo rank (shortestOfRank tie rank).value := by
  rw [shortestOfRank, Decimal.value_strip]
  exact between_firstGridPoint 17 (by decide) (gridPoint?_lastGrid_ne_none tie _ h)

end Criteria
