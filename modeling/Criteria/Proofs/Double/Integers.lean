import Mathlib.Algebra.Group.Nat.Defs
import Criteria.Json.Number

/-!
# Integers as floating-point numbers

Rounding an integer to the nearest floating-point number never changes the order of two
integers, but it may make them equal. It does so to no integer of fewer than 54 bits: these are
floating-point numbers themselves, and a larger integer is rounded to none of them.

## Main definitions

- `Double.TellsApart`: two integers are rounded to the same number only if they are equal
- `Double.integerRank`: the place of an integer in the order of floating-point numbers

## Main statements

- `rankOfRatio_mono`: rounding is monotone
- `unitsOfRank_rankOfRatio`: rounding is exact where 53 significant bits are enough
- `Double.compare?_ofInt`: integers that are told apart compare as integers
- `Double.tellsApart_of_natAbs_lt`: an integer below `2 ^ 53` is told apart from every other
-/

namespace Criteria

section Rank

variable {m n den : Nat}

theorem roundDiv_mul (quotient : Nat) (hden : 0 < den) :
    roundDiv (quotient * den) den = quotient := by
  simp [roundDiv, Nat.mul_div_cancel _ hden, hden]

/-- A larger number is rounded to no smaller quotient. -/
theorem roundDiv_mono (h : m ≤ n) : roundDiv m den ≤ roundDiv n den := by
  have hquotient : m / den ≤ n / den := Nat.div_le_div_right h
  rcases Nat.lt_or_eq_of_le hquotient with hlt | heq
  · -- rounding up reaches the next quotient at most
    have hup : roundDiv m den ≤ m / den + 1 := by
      simp only [roundDiv]
      split <;> omega
    have hdown : n / den ≤ roundDiv n den := by
      simp only [roundDiv]
      split <;> omega
    omega
  · have hremainder : m % den ≤ n % den := by
      have hm := Nat.div_add_mod m den
      have hn := Nat.div_add_mod n den
      rw [heq] at hm
      omega
    simp only [roundDiv, heq, Bool.or_eq_true, Bool.and_eq_true, decide_eq_true_eq, beq_iff_eq]
    split <;> split <;> omega

theorem le_roundDiv {quotient : Nat} (hden : 0 < den) (h : quotient * den ≤ n) :
    quotient ≤ roundDiv n den := by
  have hround : roundDiv (quotient * den) den ≤ roundDiv n den := roundDiv_mono h
  rwa [roundDiv_mul quotient hden] at hround

theorem roundDiv_le {quotient : Nat} (hden : 0 < den) (h : n ≤ quotient * den) :
    roundDiv n den ≤ quotient := by
  have hround : roundDiv n den ≤ roundDiv (quotient * den) den := roundDiv_mono h
  rwa [roundDiv_mul quotient hden] at hround

/-- The rank of a whole number of units, by the number of bits that do not fit. -/
theorem rankOfRatio_one (n : Nat) :
    rankOfRatio n 1 = (n.log2 - 52) * 2 ^ 52 + roundDiv n (2 ^ (n.log2 - 52)) := by
  simp only [rankOfRatio, Nat.div_one, Nat.one_mul]
  rfl

theorem rankOfRatio_one_le (n : Nat) : rankOfRatio n 1 ≤ (n.log2 - 52) * 2 ^ 52 + 2 ^ 53 := by
  have hbound : n ≤ 2 ^ 53 * 2 ^ (n.log2 - 52) := by
    rw [← Nat.pow_add]
    exact Nat.le_trans (Nat.le_of_lt Nat.lt_log2_self)
      (Nat.pow_le_pow_right (by decide) (by omega))
  rw [rankOfRatio_one]
  exact Nat.add_le_add_left (roundDiv_le (Nat.two_pow_pos _) hbound) _

/-- A larger number of units has no smaller rank. Where more bits of the larger number do not
fit, a power of two lies between the two. -/
theorem rankOfRatio_mono (h : m ≤ n) : rankOfRatio m 1 ≤ rankOfRatio n 1 := by
  by_cases hm : m = 0
  · rw [hm]
    exact Nat.zero_le _
  have hn : n ≠ 0 := by omega
  have hlog : m.log2 ≤ n.log2 := (Nat.le_log2 hn).mpr (Nat.le_trans (Nat.log2_self_le hm) h)
  by_cases hspare : m.log2 - 52 = n.log2 - 52
  · rw [rankOfRatio_one, rankOfRatio_one, hspare]
    exact Nat.add_le_add_left (roundDiv_mono h) _
  · have hpow : 2 ^ 52 * 2 ^ (n.log2 - 52) ≤ n := by
      rw [← Nat.pow_add, Nat.add_sub_cancel' (by omega : 52 ≤ n.log2)]
      exact Nat.log2_self_le hn
    have hround := le_roundDiv (Nat.two_pow_pos _) hpow
    have hbelow := rankOfRatio_one_le m
    have hapart : m.log2 - 52 < n.log2 - 52 := by omega
    rw [rankOfRatio_one n]
    grind

/-- The units of a rank whose fraction has the implicit bit. -/
theorem unitsOfRank_add {spare quotient : Nat} (hlow : 2 ^ 52 ≤ quotient)
    (hhigh : quotient < 2 ^ 53) :
    unitsOfRank (spare * 2 ^ 52 + quotient) = quotient * 2 ^ spare := by
  obtain ⟨fraction, rfl⟩ := Nat.exists_eq_add_of_le hlow
  have hfraction : fraction < 2 ^ 52 := by grind
  have hrank : spare * 2 ^ 52 + (2 ^ 52 + fraction) = 2 ^ 52 * (spare + 1) + fraction := by grind
  have hmod : (2 ^ 52 * (spare + 1) + fraction) % 2 ^ 52 = fraction := by
    rw [Nat.mul_add_mod, Nat.mod_eq_of_lt hfraction]
  have hdiv : (2 ^ 52 * (spare + 1) + fraction) / 2 ^ 52 = spare + 1 := by
    rw [Nat.mul_add_div (Nat.two_pow_pos 52), Nat.div_eq_of_lt hfraction, Nat.add_zero]
  have hnormal : ¬ 2 ^ 52 * (spare + 1) + fraction < 2 ^ 52 := by grind
  have hword : Nat.pow 2 52 = 2 ^ 52 := rfl
  rw [hrank, unitsOfRank, hword, if_neg hnormal, hmod, hdiv, Nat.add_sub_cancel]
  rfl

/-- Rounding is exact where 53 significant bits are enough. -/
theorem unitsOfRank_rankOfRatio {significand exponent : Nat} (h : significand < 2 ^ 53) :
    unitsOfRank (rankOfRatio (significand * 2 ^ exponent) 1) = significand * 2 ^ exponent := by
  generalize hn : significand * 2 ^ exponent = n
  by_cases hzero : n = 0
  · rw [hzero]
    rfl
  have hspare : n.log2 - 52 ≤ exponent := by
    have hlt : n < 2 ^ (53 + exponent) := by
      rw [← hn, Nat.pow_add]
      exact Nat.mul_lt_mul_of_pos_right h (Nat.two_pow_pos exponent)
    have := (Nat.log2_lt hzero).mpr hlt
    omega
  -- the bits that do not fit are zero
  obtain ⟨quotient, hquotient⟩ : 2 ^ (n.log2 - 52) ∣ n := by
    have hdvd := Nat.dvd_mul_left_of_dvd (Nat.pow_dvd_pow 2 hspare) significand
    rwa [hn] at hdvd
  have hround : roundDiv n (2 ^ (n.log2 - 52)) = quotient := by
    generalize 2 ^ (n.log2 - 52) = scale at hquotient
    rw [hquotient, Nat.mul_comm]
    exact roundDiv_mul quotient (Nat.pos_of_ne_zero fun hscale => hzero (by simp_all))
  have hhigh : quotient < 2 ^ 53 := by
    have hlt : 2 ^ (n.log2 - 52) * quotient < 2 ^ (n.log2 - 52) * 2 ^ 53 := by
      rw [← hquotient, ← Nat.pow_add]
      exact Nat.lt_of_lt_of_le Nat.lt_log2_self (Nat.pow_le_pow_right (by decide) (by omega))
    exact Nat.lt_of_mul_lt_mul_left hlt
  rw [rankOfRatio_one, hround]
  by_cases hlow : 2 ^ 52 ≤ quotient
  · rw [unitsOfRank_add hlow hhigh, Nat.mul_comm, ← hquotient]
  · -- then all bits fit, and the number is its own rank
    have hfits : n.log2 - 52 = 0 := by
      by_cases hmany : n.log2 ≤ 52
      · omega
      · refine absurd ?_ hlow
        have hle : 2 ^ (n.log2 - 52) * 2 ^ 52 ≤ 2 ^ (n.log2 - 52) * quotient := by
          rw [← hquotient, ← Nat.pow_add, Nat.sub_add_cancel (by omega)]
          exact Nat.log2_self_le hzero
        exact Nat.le_of_mul_le_mul_left hle (Nat.two_pow_pos _)
    rw [hfits, Nat.pow_zero, Nat.one_mul] at hquotient
    have hsmall : quotient < Nat.pow 2 52 := Nat.lt_of_not_le hlow
    rw [hfits, Nat.zero_mul, Nat.zero_add, unitsOfRank, if_pos hsmall, hquotient]

end Rank

namespace Double

/-- The rank of a natural number. -/
def magnitudeRank (n : Nat) : Nat :=
  min (rankOfRatio (n * 2 ^ unitExponent) 1) infinityRank

/-- The place of an integer in the order of floating-point numbers. -/
def integerRank (i : Int) : Int :=
  if i < 0 then -(magnitudeRank i.natAbs : Int) else magnitudeRank i.natAbs

/-- Two integers are rounded to the same floating-point number only if they are equal. -/
def TellsApart (i j : Int) : Prop :=
  ofInt i = ofInt j → i = j

theorem magnitudeRank_mono {m n : Nat} (h : m ≤ n) : magnitudeRank m ≤ magnitudeRank n := by
  have hrank := rankOfRatio_mono (Nat.mul_le_mul_right (2 ^ unitExponent) h)
  unfold magnitudeRank
  omega

/-- The natural numbers up to `2 ^ 53` are floating-point numbers. -/
theorem unitsOfRank_magnitudeRank {n : Nat} (h : n ≤ 2 ^ 53) :
    unitsOfRank (magnitudeRank n) = n * 2 ^ unitExponent := by
  have hfinite : rankOfRatio (n * 2 ^ unitExponent) 1 ≤ infinityRank :=
    Nat.le_trans (rankOfRatio_mono (Nat.mul_le_mul_right (2 ^ unitExponent) h))
      (by decide +kernel)
  rw [magnitudeRank, Nat.min_eq_left hfinite]
  rcases Nat.lt_or_eq_of_le h with hlt | rfl
  · exact unitsOfRank_rankOfRatio hlt
  · have hone : unitsOfRank (rankOfRatio (1 * 2 ^ (53 + unitExponent)) 1) =
        1 * 2 ^ (53 + unitExponent) := unitsOfRank_rankOfRatio (by decide)
    rwa [Nat.one_mul, pow_add] at hone

/-- A natural number below `2 ^ 53` and a larger one have different ranks. -/
theorem magnitudeRank_lt {m n : Nat} (h : m < n) (hm : m < 2 ^ 53) :
    magnitudeRank m < magnitudeRank n := by
  have hle : magnitudeRank m ≤ magnitudeRank (m + 1) := magnitudeRank_mono (Nat.le_succ m)
  have hne : magnitudeRank m ≠ magnitudeRank (m + 1) := by
    intro heq
    have hunits := congrArg unitsOfRank heq
    rw [unitsOfRank_magnitudeRank (Nat.le_of_lt hm), unitsOfRank_magnitudeRank hm] at hunits
    have := Nat.eq_of_mul_eq_mul_right (Nat.two_pow_pos unitExponent) hunits
    omega
  have hnext : magnitudeRank (m + 1) ≤ magnitudeRank n := magnitudeRank_mono h
  omega

theorem magnitudeRank_pos {n : Nat} (h : 0 < n) : 0 < magnitudeRank n := by
  have hlt := magnitudeRank_lt h (by decide)
  omega

theorem ofInt_eq (i : Int) : ofInt i = ofRank (i < 0) (magnitudeRank i.natAbs) := by
  have hcap (rank : Nat) : min (min rank infinityRank) infinityRank = min rank infinityRank := by
    omega
  simp only [ofInt, ofUnits, ofRank, magnitudeRank, hcap, Nat.pow_eq]

theorem signedRank?_ofInt (i : Int) : (ofInt i).signedRank? = some (integerRank i) := by
  have hfinite : magnitudeRank i.natAbs ≤ infinityRank := Nat.min_le_right _ _
  rw [ofInt_eq, ofRank, signedRank?, integerRank]
  simp only [Nat.min_eq_left hfinite, decide_eq_true_eq]

/-- Integers are the same number if they have the same place: a number with a sign is not
zero, so it has no place in common with one of the other sign. -/
theorem ofInt_eq_ofInt_iff {i j : Int} : ofInt i = ofInt j ↔ integerRank i = integerRank j := by
  constructor
  · intro h
    have hranks := congrArg signedRank? h
    rw [signedRank?_ofInt, signedRank?_ofInt] at hranks
    exact Option.some.inj hranks
  · intro h
    have hi : i < 0 → 0 < magnitudeRank i.natAbs := fun hi => magnitudeRank_pos (by omega)
    have hj : j < 0 → 0 < magnitudeRank j.natAbs := fun hj => magnitudeRank_pos (by omega)
    unfold integerRank at h
    have hsign : i < 0 ↔ j < 0 := by
      split at h <;> split at h <;> omega
    have hrank : magnitudeRank i.natAbs = magnitudeRank j.natAbs := by
      split at h <;> split at h <;> omega
    rw [ofInt_eq, ofInt_eq, hrank, decide_eq_decide.mpr hsign]

theorem integerRank_mono {i j : Int} (h : i ≤ j) : integerRank i ≤ integerRank j := by
  unfold integerRank
  split <;> split
  · have := magnitudeRank_mono (show j.natAbs ≤ i.natAbs by omega)
    omega
  · omega
  · omega
  · have := magnitudeRank_mono (show i.natAbs ≤ j.natAbs by omega)
    omega

theorem integerRank_lt {i j : Int} (hapart : TellsApart i j) (h : i < j) :
    integerRank i < integerRank j := by
  have hle := integerRank_mono (Int.le_of_lt h)
  have hne : integerRank i ≠ integerRank j := fun heq =>
    absurd (hapart (ofInt_eq_ofInt_iff.mpr heq)) (by omega)
  omega

theorem TellsApart.symm {i j : Int} (h : TellsApart i j) : TellsApart j i :=
  fun heq => (h heq.symm).symm

/-- Integers are compared by their places. -/
theorem compare?_ofInt_eq (i j : Int) :
    (ofInt i).compare? (ofInt j) = some (compare (integerRank i) (integerRank j)) := by
  simp only [compare?, signedRank?_ofInt]
  rfl

theorem compare?_ofInt_eq_iff {i j : Int} :
    (ofInt i).compare? (ofInt j) = some .eq ↔ ofInt i = ofInt j := by
  rw [compare?_ofInt_eq, ofInt_eq_ofInt_iff, Option.some_inj, Int.compare_eq_eq]

/-- Integers that are told apart are ordered as integers. -/
theorem compare?_ofInt {i j : Int} (h : TellsApart i j) :
    (ofInt i).compare? (ofInt j) = some (compare i j) := by
  rw [compare?_ofInt_eq]
  congr 1
  rcases Int.lt_trichotomy i j with hlt | rfl | hgt
  · rw [Int.compare_eq_lt.mpr hlt, Int.compare_eq_lt.mpr (integerRank_lt h hlt)]
  · rw [Int.compare_eq_eq.mpr rfl, Int.compare_eq_eq.mpr rfl]
  · rw [Int.compare_eq_gt.mpr hgt, Int.compare_eq_gt.mpr (integerRank_lt h.symm hgt)]

/-- An integer of fewer than 54 bits is told apart from every other integer, however large. -/
theorem tellsApart_of_natAbs_lt {i : Int} (h : i.natAbs < 2 ^ 53) (j : Int) : TellsApart i j := by
  intro heq
  have hrank := ofInt_eq_ofInt_iff.mp heq
  have hi : i < 0 → 0 < magnitudeRank i.natAbs := fun hi => magnitudeRank_pos (by omega)
  have hj : j < 0 → 0 < magnitudeRank j.natAbs := fun hj => magnitudeRank_pos (by omega)
  have habs : i.natAbs = j.natAbs := by
    have hmagnitude : magnitudeRank i.natAbs = magnitudeRank j.natAbs := by
      unfold integerRank at hrank
      split at hrank <;> split at hrank <;> omega
    rcases Nat.lt_trichotomy i.natAbs j.natAbs with hlt | heq | hgt
    · have := magnitudeRank_lt hlt h
      omega
    · exact heq
    · have := magnitudeRank_lt hgt (Nat.lt_trans hgt h)
      omega
  unfold integerRank at hrank
  split at hrank <;> split at hrank <;> omega

end Double

end Criteria
