import Criteria.Proofs.Json.NumberTexts
import Criteria.Time.Printer
import Criteria.Time.Reader

/-!
# Numbers in texts of times

A number in a text of a time is padded to a width. It is read back from the digits it has there,
whatever comes after them, unless the reader may take more digits and finds one.

## Main definitions

- `Time.EndsFraction`: what may follow the fraction of a second

## Main statements

- `Time.upToDigits_append`: the digits before a rest are read
- `Time.exactly?_padded`, `Time.atMost?_padded`: a padded number is read
- `Time.fraction?_fractionText`: the fraction of a second is read
-/

namespace Criteria.Time

variable {limit width n : Nat} {digits rest : List Char}

/-- Digits are read up to a limit that they do not exceed, if they fill it or no digit
follows. -/
theorem upToDigits_append (hdigits : ∀ c ∈ digits, c.isDigit = true)
    (hlimit : digits.length ≤ limit) (hends : digits.length = limit ∨ Token.EndsDigits rest)
    (value : Nat) :
    upToDigits limit value (digits ++ rest) =
      (Nat.ofDigitChars 10 digits value, digits.length, rest) := by
  induction digits generalizing limit value with
  | nil =>
    rw [List.nil_append, Nat.ofDigitChars_nil, List.length_nil]
    cases rest with
    | nil => rw [upToDigits]
    | cons c rest =>
      rcases hends with rfl | hends
      · rw [List.length_nil, upToDigits]
        exact fun limit d h => absurd h (Nat.succ_ne_zero limit).symm
      · have hc : digit? c = none := hends c rfl
        rw [upToDigits]
        simp [hc]
  | cons c digits ih =>
    -- each digit takes one off the limit, which the digits do not exceed
    obtain ⟨limit, rfl⟩ := Nat.exists_eq_add_one.mpr (Nat.zero_lt_of_lt hlimit)
    have hc : digit? c = some (c.toNat - '0'.toNat) :=
      Token.digitValue?_of_isDigit (hdigits c List.mem_cons_self)
    have hrest := ih (fun d hd => hdigits d (List.mem_cons_of_mem c hd))
      (Nat.le_of_succ_le_succ hlimit) (hends.imp_left Nat.succ.inj)
      (value * 10 + (c.toNat - '0'.toNat))
    rw [List.cons_append, upToDigits.eq_def]
    simp only [hc, hrest]
    rw [Nat.ofDigitChars_cons, Nat.mul_comm value 10, List.length_cons]

theorem exactly?_append (hdigits : ∀ c ∈ digits, c.isDigit = true) :
    exactly? digits.length (digits ++ rest) = some (Nat.ofDigitChars 10 digits 0, rest) := by
  rw [exactly?, upToDigits_append hdigits le_rfl (.inl rfl)]
  exact if_pos rfl

theorem atMost?_append (hdigits : Token.IsDigits digits) (hlimit : digits.length ≤ limit)
    (hends : digits.length = limit ∨ Token.EndsDigits rest) :
    atMost? limit (digits ++ rest) = some (Nat.ofDigitChars 10 digits 0, rest) := by
  rw [atMost?, upToDigits_append hdigits.2 hlimit hends]
  exact if_neg (List.length_pos_iff.mpr hdigits.1).ne'

section Padded

theorem isDigits_padded (width n : Nat) : Token.IsDigits (padded width n) := by
  refine ⟨fun h => ?_, fun c hc => ?_⟩
  · exact (Token.isDigits_decimalDigits n).1 (List.append_eq_nil_iff.mp h).2
  · rcases List.mem_append.mp hc with hc | hc
    · rw [List.eq_of_mem_replicate hc]
      rfl
    · exact Token.isDigit_of_mem_decimalDigits hc

theorem length_padded (hwidth : 0 < width) (h : n < 10 ^ width) :
    (padded width n).length = width := by
  have hlength : (decimalDigits n).length ≤ width :=
    (Nat.length_toDigits_le_iff (by decide) hwidth).mpr h
  rw [padded, List.length_append, List.length_replicate]
  omega

theorem ofDigitChars_padded (width n : Nat) : Nat.ofDigitChars 10 (padded width n) 0 = n := by
  rw [padded, Nat.ofDigitChars_append, Nat.ofDigitChars_replicate_zero, Nat.mul_zero]
  exact Nat.ofDigitChars_ten_toDigits

theorem exactly?_padded (hwidth : 0 < width) (h : n < 10 ^ width) (rest : List Char) :
    exactly? width (padded width n ++ rest) = some (n, rest) := by
  have hread : exactly? (padded width n).length (padded width n ++ rest) =
      some (Nat.ofDigitChars 10 (padded width n) 0, rest) :=
    exactly?_append (isDigits_padded width n).2
  rwa [length_padded hwidth h, ofDigitChars_padded] at hread

theorem atMost?_padded (hwidth : 0 < width) (h : n < 10 ^ width) (rest : List Char) :
    atMost? width (padded width n ++ rest) = some (n, rest) := by
  have hlength := length_padded hwidth h
  rw [atMost?_append (isDigits_padded width n) hlength.le (.inl hlength), ofDigitChars_padded]

end Padded

section Fraction

/-- A text that does not go on with the fraction of a second or with its digits. -/
def EndsFraction (rest : List Char) : Prop :=
  Token.EndsDigits rest ∧ rest.head? ≠ some '.'

theorem endsFraction_nil : EndsFraction [] := by
  simp [EndsFraction, Token.EndsDigits]

theorem endsFraction_mark : EndsFraction ['Z'] := by
  refine ⟨?_, by simp⟩
  intro c hc
  cases hc
  rfl

/-- The digits after a point, of which there are nine at most. -/
theorem fraction?_point (hends : Token.EndsDigits rest) (hwidth : 0 < width) (hnine : width ≤ 9)
    (h : n < 10 ^ width) :
    fraction? ('.' :: padded width n ++ rest) = some (n * 10 ^ (9 - width), rest) := by
  have hlength := length_padded hwidth h
  have hread := upToDigits_append (isDigits_padded width n).2 (hlength.le.trans hnine)
    (.inr hends) 0
  -- digits beyond the ninth would be dropped, but none follows
  have hrest : rest.dropWhile (fun c => (digit? c).isSome) = rest := by
    cases rest with
    | nil => rfl
    | cons c rest =>
      have hc : digit? c = none := hends c rfl
      simp [hc]
  obtain ⟨width, rfl⟩ := Nat.exists_eq_add_one.mpr hwidth
  rw [hlength, ofDigitChars_padded] at hread
  rw [List.cons_append, fraction?, hread]
  simp only [hrest]
  rfl

theorem fraction?_fractionText (hends : EndsFraction rest) (h : n < leapNanosecond) :
    fraction? (fractionText n ++ rest) = some (n, rest) := by
  rw [leapNanosecond] at h
  unfold fractionText
  split_ifs with hzero hmilli hmicro
  · rw [hzero, List.nil_append, fraction?]
    rintro digits rfl
    exact hends.2 rfl
  · have hn : n / 1000000 * 10 ^ (9 - 3) = n := by omega
    rw [fraction?_point hends.1 (by decide) (by decide) (by omega), hn]
  · have hn : n / 1000 * 10 ^ (9 - 6) = n := by omega
    rw [fraction?_point hends.1 (by decide) (by decide) (by omega), hn]
  · rw [fraction?_point hends.1 (by decide) (by decide) (by omega)]
    simp

end Fraction

end Criteria.Time
