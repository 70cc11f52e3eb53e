import Criteria.Proofs.Double.Sizes

/-!
# Whole numbers

The shortest decimal of a whole number has no digits after the point, and that of any other number
has some. A whole number below `10 ^ 16` is its own shortest decimal.

## Main definitions

- `IsWhole`: the ranks of whole numbers
- `searched`: what the search for the shortest decimal finds

## Main statements

- `exponent_neg`, `exponent_nonneg`: the digits after the point
- `value_shortestOfRank`: whole numbers below `10 ^ 16`
-/

namespace Criteria

namespace Decimal

/-- A decimal without digits after the point is a natural number. -/
theorem value_of_nonneg {d : Decimal} (h : 0 ≤ d.exponent) :
    d.value = (d.digits * 10 ^ d.exponent.toNat : Nat) := by
  obtain ⟨n, hn⟩ := Int.eq_ofNat_of_zero_le h
  rw [value, hn, Int.toNat_natCast, zpow_natCast]
  push_cast
  rfl

theorem exponent_le_strip (d : Decimal) (fuel : Nat) : d.exponent ≤ (d.strip fuel).exponent := by
  induction fuel generalizing d with
  | zero => exact le_rfl
  | succ fuel ih =>
    rw [strip]
    split
    · exact le_trans (by dsimp only; omega) (ih _)
    · exact le_rfl

end Decimal

/-- The number of a rank has no fraction. -/
def IsWhole (rank : Nat) : Prop :=
  ∃ n : Nat, magnitude rank = n

section Whole

variable {rank n : Nat} {tie : DecimalTie}

theorem magnitude_eq_natCast_iff :
    magnitude rank = n ↔ unitsOfRank rank = n * 2 ^ unitExponent := by
  rw [magnitude, div_eq_iff two_pow_unitExponent_pos.ne']
  norm_cast

theorem two_mul_unitsOfRank (h : magnitude rank = n) :
    2 * unitsOfRank rank = n * 2 ^ (unitExponent + 1) := by
  rw [magnitude_eq_natCast_iff.mp h, pow_succ]
  ring

theorem pos_of_fraction (h : ¬ IsWhole rank) : 0 < rank := by
  refine Nat.pos_of_ne_zero ?_
  rintro rfl
  exact h ⟨0, magnitude_zero.trans Nat.cast_zero.symm⟩

theorem natCast_le_magnitude_iff :
    (n : ℚ) ≤ magnitude rank ↔ n * 2 ^ unitExponent ≤ unitsOfRank rank := by
  rw [magnitude, le_div_iff₀ two_pow_unitExponent_pos]
  norm_cast

/-- A number with 53 bits or more before the last has no fraction after it. -/
theorem two_pow_dvd_unitsOfRank {bits : Nat} (h : 2 ^ 52 * 2 ^ bits ≤ unitsOfRank rank) :
    2 ^ bits ∣ unitsOfRank rank := by
  by_cases hsmall : rank < 2 ^ 52
  · rw [unitsOfRank_of_lt hsmall] at h ⊢
    have hpos := Nat.two_pow_pos bits
    have := Nat.le_mul_of_pos_right (2 ^ 52) hpos
    omega
  · obtain ⟨quotient, hlow, hhigh, hrank⟩ := exists_quotient_of_le (Nat.le_of_not_lt hsmall)
    generalize rank / 2 ^ 52 - 1 = spare at hrank
    rw [hrank, unitsOfRank_add hlow hhigh] at h ⊢
    have hlt : 2 ^ 52 * 2 ^ bits < 2 ^ 52 * 2 ^ (spare + 1) := by
      refine h.trans_lt ((Nat.mul_lt_mul_of_pos_right hhigh (Nat.two_pow_pos spare)).trans_eq ?_)
      rw [Nat.pow_succ 2 spare]
      ring
    have hbits : bits < spare + 1 :=
      (Nat.pow_lt_pow_iff_right (by decide)).mp (Nat.lt_of_mul_lt_mul_left hlt)
    exact Nat.dvd_mul_left_of_dvd (Nat.pow_dvd_pow 2 (Nat.lt_succ_iff.mp hbits)) quotient

theorem isWhole_of_le (h : 2 ^ 52 * 2 ^ unitExponent ≤ unitsOfRank rank) : IsWhole rank := by
  obtain ⟨n, hn⟩ := two_pow_dvd_unitsOfRank h
  exact ⟨n, magnitude_eq_natCast_iff.mpr (by rw [hn, Nat.mul_comm])⟩

theorem magnitude_magnitudeRank (h : n ≤ 2 ^ 53) : magnitude (Double.magnitudeRank n) = n :=
  magnitude_eq_natCast_iff.mpr (Double.unitsOfRank_magnitudeRank h)

theorem roundsTo_magnitudeRank (h : n ≤ 2 ^ 53) : RoundsTo (Double.magnitudeRank n) n := by
  have hrounds := roundsTo_magnitude (Double.magnitudeRank n)
  rwa [magnitude_magnitudeRank h] at hrounds

/-- What is rounded to a rank and is a natural number of few bits is the number of the rank. -/
theorem magnitude_of_roundsTo (hn : n ≤ 2 ^ 53) (h : RoundsTo rank n) : magnitude rank = n := by
  rw [h.unique (roundsTo_magnitudeRank hn), magnitude_magnitudeRank hn]

/-- A natural number is rounded to a number that is as great as those of few bits up to it. -/
theorem le_unitsOfRank_of_roundsTo {bound : Nat} (hbound : bound ≤ 2 ^ 53) (hn : bound ≤ n)
    (h : RoundsTo rank n) : bound * 2 ^ unitExponent ≤ unitsOfRank rank := by
  rw [← Double.unitsOfRank_magnitudeRank hbound]
  exact unitsOfRank_strictMono.monotone
    ((roundsTo_magnitudeRank hbound).mono h (by exact_mod_cast hn))

/-- The shortest decimal of a number with a fraction has digits after the point. -/
theorem exponent_neg (tie : DecimalTie) (h : 0 < rank) (hfraction : ¬ IsWhole rank) :
    (shortestOfRank tie rank).exponent < 0 := by
  by_contra hnonneg
  have hrounds := roundsTo_shortestOfRank tie h
  rw [Decimal.value_of_nonneg (not_lt.mp hnonneg)] at hrounds
  refine hfraction ?_
  rcases le_total ((shortestOfRank tie rank).digits * 10 ^ (shortestOfRank tie rank).exponent.toNat)
    (2 ^ 53) with hle | hge
  · exact ⟨_, magnitude_of_roundsTo hle hrounds⟩
  · have hunits : 2 ^ 52 * 2 ^ unitExponent ≤ unitsOfRank rank :=
      le_unitsOfRank_of_roundsTo (by decide) (le_trans (by decide) hge) hrounds
    exact isWhole_of_le hunits

end Whole

section Search

variable {rank n k fuel : Nat} {tie : DecimalTie} {closed : Bool} {low value high : Nat}
  {exponent : Int}

theorem exponent_of_gridPoint? {d : Decimal}
    (h : gridPoint? tie closed low value high exponent = some d) : d.exponent = exponent := by
  rcases gridPoint?_eq_none_or tie closed low value high exponent with
    ⟨hnone, -⟩ | ⟨point, hpoint, -⟩
  · rw [h] at hnone
    cases hnone
  · rw [h] at hpoint
    rw [Option.some.inj hpoint]

/-- The search ends at a grid with a point, and not after one. -/
theorem gridPoint?_firstGridPoint (hk : k < fuel)
    (h : gridPoint? tie closed low value high (exponent - k) ≠ none) :
    let d := firstGridPoint tie closed low value high exponent fuel
    exponent - k ≤ d.exponent ∧ gridPoint? tie closed low value high d.exponent = some d := by
  induction fuel generalizing exponent k with
  | zero => omega
  | succ fuel ih =>
    rw [firstGridPoint]
    cases hpoint : gridPoint? tie closed low value high exponent with
    | some d =>
      have hd := exponent_of_gridPoint? hpoint
      dsimp only
      rw [hd]
      exact ⟨by omega, hpoint⟩
    | none =>
      cases k with
      | zero => exact absurd (by simpa using hpoint) h
      | succ k =>
        have hgrid : exponent - ((k + 1 : Nat) : Int) = exponent - 1 - k := by omega
        rw [hgrid] at h ⊢
        exact ih (by omega) h

theorem gridStep_zero : gridStep 0 = 2 ^ (unitExponent + 1) := by
  have hpow (base n : Nat) : Nat.pow base n = base ^ n := rfl
  rw [gridStep, if_neg (lt_irrefl 0), Int.toNat_zero, hpow, hpow, pow_zero, one_mul]

/-- On the grid of ones a whole number is a point itself, and nothing else is taken. -/
theorem gridPoint?_zero (hvalue : value = n * 2 ^ (unitExponent + 1)) (hlow : low < value)
    (hhigh : value < high) : gridPoint? tie closed low value high 0 = some ⟨n, 0⟩ := by
  have hstep := gridStep_zero
  have hscale : gridScale 0 = 1 := rfl
  have hpos := gridStep_pos 0
  rw [hstep] at hpos
  generalize 2 ^ (unitExponent + 1) = unit at hvalue hstep hpos
  have hbelow : pointBelow value 0 = n := by
    rw [pointBelow, hscale, hstep, hvalue, Nat.mul_one, Nat.mul_div_cancel _ hpos]
  have hinside : isInside closed low high 0 n = true := by
    rw [isInside, hscale, hstep, ← hvalue]
    cases closed <;> simp <;> omega
  rw [gridPoint?_eq, hbelow, hinside]
  cases isInside closed low high 0 (n + 1) with
  | false => rfl
  | true =>
    have hdown : value * gridScale 0 - n * gridStep 0 = 0 := by
      rw [hscale, hstep, hvalue]
      omega
    have hup : (n + 1) * gridStep 0 - value * gridScale 0 = unit := by
      rw [hscale, hstep, hvalue, Nat.succ_mul]
      omega
    simp only [nearerPoint, hbelow, hdown, hup, hpos.ne', if_false, Nat.not_lt_zero,
      decide_false, Bool.false_eq_true]

/-- The first digit of a positive whole number stands before the point. -/
theorem leadingExponent_nonneg (hvalue : value = n * 2 ^ (unitExponent + 1)) (hpos : 0 < value) :
    0 ≤ leadingExponent value := by
  by_contra hneg
  have hlt := lt_inHalves_leadingExponent_succ value
  generalize leadingExponent value = lead at hneg hlt
  have hle : (10 : ℚ) ^ (lead + 1) ≤ 1 := zpow_le_one_of_nonpos₀ (by norm_num) (by omega)
  rw [hvalue, inHalves, Nat.cast_mul] at hlt
  rw [hvalue] at hpos
  generalize 2 ^ (unitExponent + 1) = halves at hlt hpos
  have hone : (1 : ℚ) ≤ n := by exact_mod_cast Nat.pos_of_mul_pos_right hpos
  exact absurd (lt_of_mul_lt_mul_right hlt (Nat.cast_nonneg _)) (not_lt.mpr (hle.trans hone))

/-- What the search finds for a magnitude, with all its zeros. -/
def searched (tie : DecimalTie) (rank : Nat) : Decimal :=
  firstGridPoint tie (rank % 2 == 0) (unitsOfRank (rank - 1) + unitsOfRank rank)
    (2 * unitsOfRank rank) (unitsOfRank rank + unitsOfRank (rank + 1))
    (leadingExponent (2 * unitsOfRank rank)) 18

theorem shortestOfRank_eq (tie : DecimalTie) (rank : Nat) :
    shortestOfRank tie rank = (searched tie rank).strip 20 :=
  rfl

/-- The search ends at a grid with a point. -/
theorem gridPoint?_searched {rank : Nat} (tie : DecimalTie) (hk : k < 18)
    (h : gridPoint? tie (rank % 2 == 0) (unitsOfRank (rank - 1) + unitsOfRank rank)
      (2 * unitsOfRank rank) (unitsOfRank rank + unitsOfRank (rank + 1))
      (leadingExponent (2 * unitsOfRank rank) - k) ≠ none) :
    leadingExponent (2 * unitsOfRank rank) - k ≤ (searched tie rank).exponent ∧
      gridPoint? tie (rank % 2 == 0) (unitsOfRank (rank - 1) + unitsOfRank rank)
        (2 * unitsOfRank rank) (unitsOfRank rank + unitsOfRank (rank + 1))
        (searched tie rank).exponent = some (searched tie rank) :=
  gridPoint?_firstGridPoint hk h

/-- For a whole number the search ends at the grid of ones or before, and there it has found the
number itself. -/
theorem searched_of_whole (tie : DecimalTie) (h : 0 < rank) (hn : magnitude rank = n) :
    0 ≤ (searched tie rank).exponent ∧
      ((searched tie rank).exponent = 0 → searched tie rank = ⟨n, 0⟩) := by
  have hvalue := two_mul_unitsOfRank hn
  have hpos := unitsOfRank_pos h
  have hlow : unitsOfRank (rank - 1) < unitsOfRank rank := unitsOfRank_strictMono (by omega)
  have hhigh : unitsOfRank rank < unitsOfRank (rank + 1) := unitsOfRank_strictMono (by omega)
  have hones : gridPoint? tie (rank % 2 == 0) (unitsOfRank (rank - 1) + unitsOfRank rank)
      (2 * unitsOfRank rank) (unitsOfRank rank + unitsOfRank (rank + 1)) 0 = some ⟨n, 0⟩ :=
    gridPoint?_zero hvalue (by omega) (by omega)
  have hlead := leadingExponent_nonneg hvalue (by omega)
  rcases Int.lt_or_le 17 (leadingExponent (2 * unitsOfRank rank)) with hlong | hshort
  · obtain ⟨hge, -⟩ := gridPoint?_searched tie (by decide) (gridPoint?_lastGrid_ne_none tie _ h)
    exact ⟨by omega, fun hzero => by omega⟩
  · obtain ⟨k, hk⟩ := Int.eq_ofNat_of_zero_le hlead
    have hgrid : leadingExponent (2 * unitsOfRank rank) - (k : Int) = 0 := by omega
    obtain ⟨hge, hsome⟩ := gridPoint?_searched tie (k := k) (by omega)
      (by rw [hgrid, hones]; exact Option.some_ne_none _)
    rw [hgrid] at hge
    refine ⟨hge, fun hzero => ?_⟩
    rw [hzero, hones] at hsome
    exact (Option.some.inj hsome).symm

/-- The decimal of a whole number has no digits after the point. -/
theorem exponent_nonneg (tie : DecimalTie) (h : 0 < rank) (hwhole : IsWhole rank) :
    0 ≤ (shortestOfRank tie rank).exponent := by
  obtain ⟨n, hn⟩ := hwhole
  exact (searched_of_whole tie h hn).1.trans (Decimal.exponent_le_strip _ _)

end Search

section Exact

variable {rank n : Nat} {tie : DecimalTie}

/-- The numbers of a rank below `10 ^ 16` are at most two apart from the next ones. -/
theorem two_pow_place_le (h : magnitude rank < 10 ^ 16) :
    2 ^ (rank / 2 ^ 52 - 1) ≤ 2 ^ (unitExponent + 1) := by
  have hrank := magnitude_lt_iff.mp (h.trans_le ten_pow_le_magnitude_sixteenRank)
  have hexponent : unitExponent = 1074 := rfl
  have hsixteen : sixteenRank = 0x4341C37937E08000 := rfl
  exact Nat.pow_le_pow_right (by decide) (by omega)

/-- A whole number from `2 ^ 53` on is even. -/
theorem even_of_le (hn : magnitude rank = n) (h : 2 ^ 53 * 2 ^ unitExponent ≤ unitsOfRank rank) :
    n % 2 = 0 := by
  have hunits := magnitude_eq_natCast_iff.mp hn
  have hbits : 2 ^ 52 * 2 ^ (unitExponent + 1) ≤ unitsOfRank rank := by
    refine le_of_eq_of_le ?_ h
    rw [pow_succ 2 unitExponent]
    ring
  have hdvd := two_pow_dvd_unitsOfRank hbits
  rw [hunits, pow_succ, Nat.mul_comm n] at hdvd
  have hpos : 0 < 2 ^ unitExponent := Nat.two_pow_pos _
  generalize 2 ^ unitExponent = unit at hdvd hpos
  exact Nat.mod_eq_zero_of_dvd (Nat.dvd_of_mul_dvd_mul_left hpos hdvd)

/-- A natural number that is rounded to the rank of a whole number below `10 ^ 16` is next to that
number. -/
theorem natAbs_sub_le_one {m : Nat} (hpos : 0 < rank) (h : RoundsTo rank m)
    (hn : magnitude rank = n) (hsmall : magnitude rank < 10 ^ 16) : m ≤ n + 1 ∧ n ≤ m + 1 := by
  have hnext := unitsOfRank_succ rank
  have hprevious := unitsOfRank_succ (rank - 1)
  rw [Nat.sub_add_cancel hpos] at hprevious
  have hplace := two_pow_place_le hsmall
  have hplace' : 2 ^ ((rank - 1) / 2 ^ 52 - 1) ≤ 2 ^ (rank / 2 ^ 52 - 1) :=
    Nat.pow_le_pow_right (by decide) (by omega)
  obtain ⟨hlow, hhigh⟩ := h.le
  have hvalue := two_mul_unitsOfRank hn
  have hhalves : 0 < 2 ^ (unitExponent + 1) := Nat.two_pow_pos _
  rw [inHalves, ← Nat.cast_mul, Nat.cast_le] at hlow hhigh
  generalize 2 ^ (unitExponent + 1) = halves at hplace hlow hhigh hvalue hhalves
  constructor
  · refine Nat.le_of_mul_le_mul_right ?_ hhalves
    rw [Nat.succ_mul]
    omega
  · refine Nat.le_of_mul_le_mul_right ?_ hhalves
    rw [Nat.succ_mul]
    omega

/-- The shortest decimal of a whole number below `10 ^ 16` is that number. -/
theorem value_shortestOfRank (tie : DecimalTie) (hpos : 0 < rank) (hn : magnitude rank = n)
    (hsmall : magnitude rank < 10 ^ 16) : (shortestOfRank tie rank).value = n := by
  have hnonneg := exponent_nonneg tie hpos ⟨n, hn⟩
  have hrounds := roundsTo_shortestOfRank tie hpos
  obtain ⟨m, hm⟩ : ∃ m, m = (shortestOfRank tie rank).digits *
    10 ^ (shortestOfRank tie rank).exponent.toNat := ⟨_, rfl⟩
  rw [Decimal.value_of_nonneg hnonneg, ← hm] at hrounds ⊢
  rcases le_total m (2 ^ 53) with hle | hge
  · rw [← hn, magnitude_of_roundsTo hle hrounds]
  -- Then the number is even, and so is its decimal unless it is from the grid of ones.
  · have hunits := le_unitsOfRank_of_roundsTo le_rfl hge hrounds
    have heven := even_of_le hn hunits
    have hnear := natAbs_sub_le_one hpos hrounds hn hsmall
    obtain ⟨hsearched, hones⟩ := searched_of_whole tie hpos hn
    rcases hnonneg.eq_or_lt with hzero | hlt
    · have hle := Decimal.exponent_le_strip (searched tie rank) 20
      rw [← shortestOfRank_eq, ← hzero] at hle
      have hvalue := Decimal.value_strip (searched tie rank) 20
      rw [← shortestOfRank_eq, hones (le_antisymm hle hsearched), Decimal.value_of_nonneg hnonneg,
        ← hm] at hvalue
      rw [hvalue]
      simp [Decimal.value]
    · obtain ⟨e, he⟩ := Int.eq_succ_of_zero_lt hlt
      have hparity : 2 ∣ m := by
        rw [hm, show (shortestOfRank tie rank).exponent.toNat = e + 1 by omega, pow_succ,
          ← mul_assoc]
        exact Dvd.dvd.mul_left (by decide) _
      exact_mod_cast show m = n by omega

end Exact

end Criteria
