import Criteria.Proofs.Double.Ties
import Criteria.Proofs.Json.NumberTexts

/-!
# The size of a number and the place of its first digit

The first digit of the shortest decimal of a number stands where the number is among the powers of
ten that are told apart from the numbers below them.

## Main definitions

- `Decimal.leading`: the power of ten of the first digit
- `magnitude`: the number of a rank

## Main statements

- `RoundsTo.mono`: rounding is monotone
- `leading_lt_iff`: the first digit and powers of ten
- `leading_bounds`: the first digit of any finite number
-/

namespace Criteria

namespace Decimal

/-- The power of ten of the first digit. -/
def leading (d : Decimal) : Int :=
  d.exponent + (decimalDigits d.digits).length - 1

theorem leading_lt_iff {d : Decimal} (h : 0 < d.digits) {e : Int} :
    d.leading < e ↔ d.value < 10 ^ e := by
  have hlength : 0 < (decimalDigits d.digits).length := Nat.length_toDigits_pos
  have hlow : (10 : ℚ) ^ ((decimalDigits d.digits).length - 1) ≤ d.digits := by
    exact_mod_cast pow_length_decimalDigits_le h
  have hhigh : (d.digits : ℚ) < 10 ^ (decimalDigits d.digits).length := by
    exact_mod_cast (Nat.length_toDigits_le_iff (by decide) hlength).mp le_rfl
  have hten : (0 : ℚ) < 10 ^ d.exponent := by positivity
  have hone : (1 : ℚ) < 10 := by norm_num
  have hfirst : (10 : ℚ) ^ d.leading ≤ d.value := by
    rw [leading, value, show d.exponent + ((decimalDigits d.digits).length : Int) - 1 =
      ((decimalDigits d.digits).length - 1 : Nat) + d.exponent by omega,
      zpow_add₀ (by norm_num), zpow_natCast]
    exact mul_le_mul_of_nonneg_right hlow hten.le
  have hafter : d.value < (10 : ℚ) ^ (d.leading + 1) := by
    rw [leading, value, show d.exponent + ((decimalDigits d.digits).length : Int) - 1 + 1 =
      ((decimalDigits d.digits).length : Nat) + d.exponent by omega,
      zpow_add₀ (by norm_num), zpow_natCast]
    exact mul_lt_mul_of_pos_right hhigh hten
  constructor
  · intro hlt
    exact hafter.trans_le (zpow_le_zpow_right₀ hone.le (by omega))
  · intro hlt
    exact (zpow_lt_zpow_iff_right₀ hone).mp (hfirst.trans_lt hlt)

end Decimal

/-- The number of a rank. -/
def magnitude (rank : Nat) : ℚ :=
  unitsOfRank rank / (2 ^ unitExponent : Nat)

theorem magnitude_zero : magnitude 0 = 0 := by
  rw [magnitude, show unitsOfRank 0 = 0 by decide, Nat.cast_zero, zero_div]

theorem two_pow_unitExponent_pos : (0 : ℚ) < (2 ^ unitExponent : Nat) := by
  exact_mod_cast Nat.two_pow_pos unitExponent

theorem inHalves_magnitude (rank : Nat) : inHalves (magnitude rank) = 2 * unitsOfRank rank := by
  have hpos := two_pow_unitExponent_pos
  rw [inHalves, magnitude, pow_succ, Nat.cast_mul]
  field_simp
  push_cast
  ring

theorem magnitude_lt_iff {r s : Nat} : magnitude r < magnitude s ↔ r < s := by
  rw [magnitude, magnitude, div_lt_div_iff_of_pos_right two_pow_unitExponent_pos, Nat.cast_lt]
  exact unitsOfRank_strictMono.lt_iff_lt

theorem inHalves_lt_iff {x y : ℚ} : inHalves x < inHalves y ↔ x < y :=
  mul_lt_mul_iff_of_pos_right (by exact_mod_cast Nat.two_pow_pos (unitExponent + 1))

/-- A number of a rank is rounded to the rank. -/
theorem roundsTo_magnitude (rank : Nat) : RoundsTo rank (magnitude rank) := by
  rcases Nat.eq_zero_or_pos rank with rfl | hpos
  · rw [magnitude_zero]
    exact roundsTo_zero
  · have hlow : unitsOfRank (rank - 1) < unitsOfRank rank := unitsOfRank_strictMono (by omega)
    have hhigh : unitsOfRank rank < unitsOfRank (rank + 1) := unitsOfRank_strictMono (by omega)
    refine between_of_lt ?_ ?_ <;> rw [inHalves_magnitude] <;> norm_cast <;> omega

/-- A greater number is rounded to no smaller rank. -/
theorem RoundsTo.mono {r s : Nat} {x y : ℚ} (hr : RoundsTo r x) (hs : RoundsTo s y)
    (h : x ≤ y) : r ≤ s := by
  by_contra hlt
  rw [not_le] at hlt
  have hbounds : unitsOfRank s + unitsOfRank (s + 1) ≤ unitsOfRank (r - 1) + unitsOfRank r := by
    have hfirst : unitsOfRank s ≤ unitsOfRank (r - 1) :=
      unitsOfRank_strictMono.monotone (by omega)
    have hsecond : unitsOfRank (s + 1) ≤ unitsOfRank r := unitsOfRank_strictMono.monotone hlt
    omega
  have hbounds' : ((unitsOfRank s + unitsOfRank (s + 1) : Nat) : ℚ) ≤
      (unitsOfRank (r - 1) + unitsOfRank r : Nat) := by exact_mod_cast hbounds
  have hle : inHalves y ≤ inHalves x := (hs.le.2.trans hbounds').trans hr.le.1
  have heq : x = y := le_antisymm h
    (le_of_not_gt fun hxy => absurd (inHalves_lt_iff.mpr hxy) hle.not_gt)
  rw [heq] at hr
  exact hs.not_lt hr hlt

section Leading

variable {rank : Nat} {tie : DecimalTie}

/-- A power of ten that is the shortest decimal of the least number from there on divides the
numbers by the place of their first digit. -/
theorem leading_lt_iff {bound : Nat} {e : Int} (hbound : shortestOfRank tie bound = ⟨1, e⟩)
    (hpos : 0 < bound) (hbelow : magnitude (bound - 1) < 10 ^ e) (habove : 10 ^ e ≤ magnitude bound)
    (h : 0 < rank) : (shortestOfRank tie rank).leading < e ↔ magnitude rank < 10 ^ e := by
  have hrounds := roundsTo_shortestOfRank tie h
  have hvalue : (shortestOfRank tie bound).value = 10 ^ e := by
    rw [hbound, Decimal.value, Nat.cast_one, one_mul]
  have hten : RoundsTo bound (10 ^ e) := hvalue ▸ roundsTo_shortestOfRank tie hpos
  rw [Decimal.leading_lt_iff (digits_pos_of_roundsTo h hrounds)]
  constructor
  · intro hlt
    refine lt_of_not_ge fun hge => ?_
    -- then it is the rank of the power itself, whose decimal is not below it
    have hle : rank ≤ bound := hrounds.mono hten hlt.le
    have hge' : ¬ rank < bound := fun hrank => by
      have hbefore : magnitude rank ≤ magnitude (bound - 1) :=
        not_lt.mp fun hlt => absurd (magnitude_lt_iff.mp hlt) (by omega)
      exact absurd (hge.trans hbefore) (not_le.mpr hbelow)
    obtain rfl : rank = bound := by omega
    rw [hvalue] at hlt
    exact lt_irrefl _ hlt
  · intro hlt
    refine lt_of_not_ge fun hge => ?_
    have hrank : rank < bound := magnitude_lt_iff.mp (hlt.trans_le habove)
    exact absurd (hten.mono hrounds hge) (by omega)

theorem magnitude_lt_div {num den : Nat} (hden : 0 < den)
    (h : unitsOfRank rank * den < num * 2 ^ unitExponent) : magnitude rank < num / den := by
  rw [magnitude, div_lt_div_iff₀ two_pow_unitExponent_pos (by exact_mod_cast hden)]
  exact_mod_cast h

theorem div_le_magnitude {num den : Nat} (hden : 0 < den)
    (h : num * 2 ^ unitExponent ≤ unitsOfRank rank * den) : num / den ≤ magnitude rank := by
  rw [magnitude, div_le_div_iff₀ (by exact_mod_cast hden) two_pow_unitExponent_pos]
  exact_mod_cast h

/-- The rank of the least number from `10 ^ 16` on, which is that power. -/
def sixteenRank : Nat := 0x4341C37937E08000

theorem ten_pow_le_magnitude_sixteenRank : 10 ^ 16 ≤ magnitude sixteenRank := by
  have hten : (10 : ℚ) ^ 16 = (10000000000000000 : Nat) / (1 : Nat) := by norm_num
  rw [hten]
  exact div_le_magnitude Nat.one_pos (by decide +kernel)

theorem leading_lt_sixteen_iff (tie : DecimalTie) (h : 0 < rank) :
    (shortestOfRank tie rank).leading < 16 ↔ magnitude rank < 10 ^ 16 := by
  have hten : (10 : ℚ) ^ (16 : Int) = (10000000000000000 : Nat) / (1 : Nat) := by norm_num
  have hbound : shortestOfRank tie sixteenRank = ⟨1, 16⟩ := by
    cases tie <;> decide +kernel
  have habove := ten_pow_le_magnitude_sixteenRank
  rw [← zpow_ofNat] at habove ⊢
  exact leading_lt_iff hbound (by decide)
    (hten ▸ magnitude_lt_div Nat.one_pos (by decide +kernel)) habove h

theorem leading_lt_minus_five_iff (tie : DecimalTie) (h : 0 < rank) :
    (shortestOfRank tie rank).leading < -5 ↔ magnitude rank < 1 / 10 ^ 5 := by
  have hten : (10 : ℚ) ^ (-5 : Int) = (1 : Nat) / (100000 : Nat) := by norm_num
  have hbound : shortestOfRank tie 0x3EE4F8B588E368F1 = ⟨1, -5⟩ := by
    cases tie <;> decide +kernel
  have hiff := leading_lt_iff hbound (by decide)
    (hten ▸ magnitude_lt_div (by decide) (by decide +kernel))
    (hten ▸ div_le_magnitude (by decide) (by decide +kernel)) h
  rwa [show (10 : ℚ) ^ (-5 : Int) = 1 / 10 ^ 5 by norm_num] at hiff

section Bounds

variable {places scale : Nat}

theorem ten_pow_eq_cast (h : scale = Nat.pow 10 places) : (10 : ℚ) ^ places = scale := by
  rw [h, Nat.pow_eq]
  push_cast
  rfl

/-- The first digit stands no further after the point than that of the least positive number. -/
theorem neg_le_leading (tie : DecimalTie) (h : 0 < rank) (hscale : scale = Nat.pow 10 places)
    (hleast : 2 ^ (unitExponent + 1) ≤ scale) :
    -(places : Int) ≤ (shortestOfRank tie rank).leading := by
  by_contra hlt
  have hrounds := roundsTo_shortestOfRank tie h
  have hsmall := (Decimal.leading_lt_iff (digits_pos_of_roundsTo h hrounds)).mp (not_le.mp hlt)
  have hlow := hrounds.le.1
  have hunits := unitsOfRank_pos h
  have hhalves : (0 : ℚ) < (2 ^ (unitExponent + 1) : Nat) := by
    exact_mod_cast Nat.two_pow_pos (unitExponent + 1)
  have hpower := ten_pow_eq_cast hscale
  rw [inHalves] at hlow
  generalize 2 ^ (unitExponent + 1) = halves at hleast hlow hhalves
  have hone : (1 : ℚ) ≤ (unitsOfRank (rank - 1) + unitsOfRank rank : Nat) := by
    exact_mod_cast show 1 ≤ unitsOfRank (rank - 1) + unitsOfRank rank by omega
  have hpos : (0 : ℚ) < scale := by
    rw [← hpower]
    positivity
  have hlast : (scale : ℚ)⁻¹ * halves ≤ 1 := by
    rw [inv_mul_le_iff₀ hpos, mul_one]
    exact_mod_cast hleast
  rw [zpow_neg, zpow_natCast, hpower] at hsmall
  exact absurd (hone.trans hlow)
    (not_le.mpr ((mul_lt_mul_of_pos_right hsmall hhalves).trans_le hlast))

/-- The first digit stands no further before the point than that of the greatest finite number. -/
theorem leading_le (tie : DecimalTie) (h : 0 < rank) (hfinite : rank < infinityRank)
    (hscale : scale = Nat.pow 10 places)
    (hgreatest : unitsOfRank infinityRank + unitsOfRank infinityRank ≤
      scale * 2 ^ (unitExponent + 1)) :
    (shortestOfRank tie rank).leading ≤ places := by
  have hrounds := roundsTo_shortestOfRank tie h
  have hhigh := hrounds.le.2
  have hhalves : (0 : ℚ) < (2 ^ (unitExponent + 1) : Nat) := by
    exact_mod_cast Nat.two_pow_pos (unitExponent + 1)
  have hpower := ten_pow_eq_cast hscale
  rw [inHalves] at hhigh
  generalize 2 ^ (unitExponent + 1) = halves at hgreatest hhigh hhalves
  have hmany : unitsOfRank rank + unitsOfRank (rank + 1) ≤ scale * halves := by
    have hfirst : unitsOfRank rank ≤ unitsOfRank infinityRank :=
      unitsOfRank_strictMono.monotone hfinite.le
    have hsecond : unitsOfRank (rank + 1) ≤ unitsOfRank infinityRank :=
      unitsOfRank_strictMono.monotone hfinite
    omega
  have hmany' : ((unitsOfRank rank + unitsOfRank (rank + 1) : Nat) : ℚ) ≤ scale * halves := by
    exact_mod_cast hmany
  have hvalue : (shortestOfRank tie rank).value ≤ scale :=
    le_of_mul_le_mul_right (hhigh.trans hmany') hhalves
  have hnext : (scale : ℚ) < 10 ^ ((places : Int) + 1) := by
    rw [← hpower, ← zpow_natCast]
    exact zpow_lt_zpow_right₀ (by norm_num) (by omega)
  exact Int.lt_add_one_iff.mp ((Decimal.leading_lt_iff (digits_pos_of_roundsTo h hrounds)).mpr
    (hvalue.trans_lt hnext))

end Bounds

/-- The first digit of a finite number is not far from the point. -/
theorem leading_bounds (tie : DecimalTie) (h : 0 < rank) (hfinite : rank < infinityRank) :
    -400 ≤ (shortestOfRank tie rank).leading ∧ (shortestOfRank tie rank).leading ≤ 400 := by
  obtain ⟨places, scale, hplaces, hscale, hleast, hgreatest⟩ : ∃ places scale : Nat,
      places = 400 ∧ scale = Nat.pow 10 places ∧ 2 ^ (unitExponent + 1) ≤ scale ∧
        unitsOfRank infinityRank + unitsOfRank infinityRank ≤ scale * 2 ^ (unitExponent + 1) :=
    ⟨400, _, rfl, rfl, by decide +kernel, by decide +kernel⟩
  have hlow := neg_le_leading tie h hscale hleast
  have hhigh := leading_le tie h hfinite hscale hgreatest
  omega

end Leading

end Criteria
