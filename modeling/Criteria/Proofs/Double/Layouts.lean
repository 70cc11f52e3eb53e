import Criteria.Proofs.Double.Wholes
import Criteria.Value

/-!
# Two written forms of a number

A number has one written form in documents and another one among values. They agree on a number
with a fraction whose first digit is not far from the point, except that the two may choose
different decimals where two shortest ones are equally near. On a whole number the form in a
document has a zero after the point more. Of a large or small number the one form has an exponent
and the other all the zeros, and then neither form is within the other.

## Main definitions

- `magnitudeDigits`: the form among values, without the sign

## Main statements

- `writePositional_of_neg`, `writePositional_of_nonneg`: decimals with and without digits after the
  point
- `magnitudeText_of_whole`, `magnitudeText_of_fraction`: numbers without an exponent
- `not_infix_of_large`, `not_infix_of_small`: the other numbers
-/

namespace Criteria

section Positional

variable {d : Decimal}

theorem length_decimalDigits_pos (n : Nat) : 0 < (decimalDigits n).length :=
  Nat.length_toDigits_pos

section Point

variable {digits digits' : List Char} {pointZero : Bool} {point : Int}

theorem writePositional_of_nonpos (h : point ≤ 0) : writePositional pointZero digits point =
    '0' :: '.' :: (List.replicate (-point).toNat '0' ++ digits) :=
  if_pos h

theorem writePositional_of_le (hpoint : ¬ point ≤ 0) (h : digits.length ≤ point.toNat) :
    writePositional pointZero digits point = digits ++
      List.replicate (point.toNat - digits.length) '0' ++ if pointZero then ['.', '0'] else [] := by
  rw [writePositional, if_neg hpoint, if_pos h]

theorem writePositional_of_lt (hpoint : ¬ point ≤ 0) (h : ¬ digits.length ≤ point.toNat) :
    writePositional pointZero digits point =
      digits.take point.toNat ++ '.' :: digits.drop point.toNat := by
  rw [writePositional, if_neg hpoint, if_neg h]

theorem length_writePositional (h : digits.length = digits'.length) (pointZero : Bool)
    (point : Int) : (writePositional pointZero digits point).length =
      (writePositional pointZero digits' point).length := by
  by_cases hpoint : point ≤ 0
  · simp [writePositional_of_nonpos hpoint, h]
  · by_cases hle : digits.length ≤ point.toNat
    · rw [writePositional_of_le hpoint hle, writePositional_of_le hpoint (h ▸ hle)]
      simp [h]
    · rw [writePositional_of_lt hpoint hle, writePositional_of_lt hpoint (h ▸ hle)]
      simp [h]

/-- Equally many digits can be told from their form. -/
theorem writePositional_inj (hlength : digits.length = digits'.length)
    (h : writePositional pointZero digits point = writePositional pointZero digits' point) :
    digits = digits' := by
  by_cases hpoint : point ≤ 0
  · rw [writePositional_of_nonpos hpoint, writePositional_of_nonpos hpoint] at h
    simpa using h
  · by_cases hle : digits.length ≤ point.toNat
    · rw [writePositional_of_le hpoint hle, writePositional_of_le hpoint (hlength ▸ hle),
        hlength] at h
      exact List.append_cancel_right (List.append_cancel_right h)
    · rw [writePositional_of_lt hpoint hle, writePositional_of_lt hpoint (hlength ▸ hle)] at h
      obtain ⟨htake, hdrop⟩ := List.append_inj h (by simp [hlength])
      rw [← List.take_append_drop point.toNat digits, htake, List.tail_eq_of_cons_eq hdrop,
        List.take_append_drop]

theorem writePositional_ne_nil (h : digits ≠ []) :
    writePositional pointZero digits point ≠ [] := by
  by_cases hpoint : point ≤ 0
  · rw [writePositional_of_nonpos hpoint]
    exact List.cons_ne_nil _ _
  · by_cases hle : digits.length ≤ point.toNat
    · rw [writePositional_of_le hpoint hle]
      simp [h]
    · rw [writePositional_of_lt hpoint hle]
      simp

theorem digit_or_point_of_mem_writePositional (hdigits : ∀ c ∈ digits, c.isDigit = true) {c : Char}
    (h : c ∈ writePositional false digits point) : c.isDigit = true ∨ c = '.' := by
  by_cases hpoint : point ≤ 0
  · rw [writePositional_of_nonpos hpoint] at h
    simp only [List.mem_cons, List.mem_append] at h
    rcases h with rfl | rfl | h | h
    · exact .inl rfl
    · exact .inr rfl
    · exact .inl (isDigit_of_mem_replicate h)
    · exact .inl (hdigits c h)
  · by_cases hle : digits.length ≤ point.toNat
    · rw [writePositional_of_le hpoint hle, if_neg Bool.false_ne_true, List.append_nil] at h
      rcases List.mem_append.mp h with h | h
      · exact .inl (hdigits c h)
      · exact .inl (isDigit_of_mem_replicate h)
    · rw [writePositional_of_lt hpoint hle] at h
      rcases List.mem_append.mp h with h | h
      · exact .inl (hdigits c (List.mem_of_mem_take h))
      · rcases List.mem_cons.mp h with rfl | h
        · exact .inr rfl
        · exact .inl (hdigits c (List.mem_of_mem_drop h))

end Point

/-- The digit at the end of an even number is not the greatest. -/
theorem length_decimalDigits_succ {n : Nat} (h : n % 2 = 0) :
    (decimalDigits (n + 1)).length = (decimalDigits n).length := by
  have hlt (n : Nat) : n < 10 ^ (decimalDigits n).length :=
    (Nat.length_toDigits_le_iff (by decide) (length_decimalDigits_pos n)).mp le_rfl
  refine le_antisymm ((Nat.length_toDigits_le_iff (by decide) (length_decimalDigits_pos n)).mpr ?_)
    ((Nat.length_toDigits_le_iff (by decide) (length_decimalDigits_pos _)).mpr
      ((Nat.lt_succ_self n).trans (hlt (n + 1))))
  have heven : 10 ^ (decimalDigits n).length % 2 = 0 :=
    Nat.mod_eq_zero_of_dvd (dvd_pow (by decide) (length_decimalDigits_pos n).ne')
  have hbound := hlt n
  omega

/-- With digits after the point there is no zero to be kept. -/
theorem writePositional_of_neg (h : d.exponent < 0) (pointZero : Bool) :
    writePositional pointZero (decimalDigits d.digits) (d.leading + 1) =
      writePositional false (decimalDigits d.digits) (d.leading + 1) := by
  have hlead : d.leading = d.exponent + (decimalDigits d.digits).length - 1 := rfl
  by_cases hpoint : d.leading + 1 ≤ 0
  · rw [writePositional_of_nonpos hpoint, writePositional_of_nonpos hpoint]
  · have hmore : ¬ (decimalDigits d.digits).length ≤ (d.leading + 1).toNat := by omega
    rw [writePositional_of_lt hpoint hmore, writePositional_of_lt hpoint hmore]

/-- Without digits after the point the missing ones before it are zeros. -/
theorem writePositional_of_nonneg (h : 0 ≤ d.exponent) (pointZero : Bool) :
    writePositional pointZero (decimalDigits d.digits) (d.leading + 1) =
      decimalDigits d.digits ++ List.replicate d.exponent.toNat '0' ++
        if pointZero then ['.', '0'] else [] := by
  have hlead : d.leading = d.exponent + (decimalDigits d.digits).length - 1 := rfl
  have hlength := length_decimalDigits_pos d.digits
  have hzeros : (d.leading + 1).toNat - (decimalDigits d.digits).length = d.exponent.toNat := by
    omega
  rw [writePositional_of_le (by omega) (by omega), hzeros]

end Positional

section Scientific

variable {t a b digits : List Char} {exponent : Int}

/-- A text without some character is within one of the parts around that character. -/
theorem infix_or_of_not_mem {c : Char} (hc : c ∉ t) (h : t <:+: a ++ c :: b) :
    t <:+: a ∨ t <:+: b := by
  rcases List.infix_append_iff.mp h with ha | hb | ⟨first, second, rfl, ha, hb⟩
  · exact .inl ha
  · rcases List.infix_cons_iff.mp hb with hb | hb
    · rcases List.prefix_cons_iff.mp hb with rfl | ⟨rest, rfl, -⟩
      · exact .inr List.nil_infix
      · exact absurd List.mem_cons_self hc
    · exact .inr hb
  · rcases List.prefix_cons_iff.mp hb with rfl | ⟨rest, rfl, -⟩
    · rw [List.append_nil]
      exact .inl ha.isInfix
    · exact absurd (List.mem_append_right first List.mem_cons_self) hc

/-- The digits of a form with an exponent, with the point after the first of them. -/
def mantissa : List Char → List Char
  | [] => []
  | [d] => [d]
  | d :: rest => d :: '.' :: rest

theorem writeScientific_eq (digits : List Char) (exponent : Int) :
    writeScientific digits exponent =
      mantissa digits ++ 'e' :: (if exponent < 0 then '-' else '+') ::
        decimalDigits exponent.natAbs := by
  match digits with
  | [] | [_] | _ :: _ :: _ => rfl

/-- What stands in a form with an exponent and has no mark in it stands among the digits before the
exponent or among those of the exponent. -/
theorem infix_writeScientific {negative : Bool} (hminus : '-' ∉ t) (hplus : '+' ∉ t) (he : 'e' ∉ t)
    (h : t <:+: (if negative then ['-'] else []) ++ writeScientific digits exponent) :
    t <:+: mantissa digits ∨ t <:+: decimalDigits exponent.natAbs := by
  have hunsigned : t <:+: writeScientific digits exponent := by
    cases negative with
    | false => exact h
    | true =>
      rcases infix_or_of_not_mem (a := []) hminus h with h | h
      · rw [List.infix_nil.mp h]
        exact List.nil_infix
      · exact h
  rw [writeScientific_eq] at hunsigned
  rcases infix_or_of_not_mem he hunsigned with h | h
  · exact .inl h
  · have hsign : (if exponent < 0 then '-' else '+') ∉ t := by
      split
      · exact hminus
      · exact hplus
    rcases infix_or_of_not_mem (a := []) hsign h with h | h
    · rw [List.infix_nil.mp h]
      exact .inl List.nil_infix
    · exact .inr h

/-- As many digits as a number has do not stand side by side in its form with an exponent. -/
theorem not_infix_writeScientific_of_digits (negative : Bool) (ht : ∀ c ∈ t, c.isDigit = true)
    (hone : 1 < t.length) (hdigits : digits.length ≤ t.length)
    (hexponent : (decimalDigits exponent.natAbs).length < t.length) :
    ¬ t <:+: (if negative then ['-'] else []) ++ writeScientific digits exponent := by
  have hmark {c : Char} (hc : c.isDigit = false) : c ∉ t := fun hmem => by
    rw [ht c hmem] at hc
    cases hc
  intro h
  rcases infix_writeScientific (hmark (by decide)) (hmark (by decide)) (hmark (by decide)) h with
    h | h
  · match digits with
    | [] => exact absurd h.length_le (Nat.not_le.mpr (Nat.zero_lt_of_lt hone))
    | [d] => exact absurd h.length_le (Nat.not_le.mpr hone)
    | d :: next :: rest =>
      rcases infix_or_of_not_mem (a := [d]) (hmark (c := '.') (by decide)) h with h | h
      · exact absurd h.length_le (by simpa using hone)
      · have hle := h.length_le
        simp only [List.length_cons] at hle hdigits
        omega
  · exact absurd h.length_le (Nat.not_le.mpr hexponent)

/-- No zero stands before the point of a form with an exponent. -/
theorem not_infix_writeScientific_of_zero (negative : Bool)
    (hdigits : ∀ c ∈ digits, c.isDigit = true) (hhead : digits.head? ≠ some '0') :
    ¬ ['0', '.'] <:+: (if negative then ['-'] else []) ++ writeScientific digits exponent := by
  have hpoint {cs : List Char} (hcs : ∀ c ∈ cs, c.isDigit = true) : ¬ ['0', '.'] <:+: cs := by
    intro h
    exact absurd (hcs '.' (h.subset (by simp))) (by decide)
  intro h
  rcases infix_writeScientific (by decide) (by decide) (by decide) h with h | h
  · match digits with
    | [] => exact absurd h.length_le (by simp [mantissa])
    | [d] => exact absurd h.length_le (by simp [mantissa])
    | d :: next :: rest =>
      rcases List.infix_cons_iff.mp h with h | h
      · obtain rfl := (List.cons_prefix_cons.mp h).1
        exact hhead rfl
      · rcases List.infix_cons_iff.mp h with h | h
        · exact absurd (List.cons_prefix_cons.mp h).1 (by decide)
        · exact hpoint (fun c hc => hdigits c (List.mem_cons_of_mem d hc)) h
  · exact hpoint (fun c hc => Token.isDigit_of_mem_decimalDigits hc) h

end Scientific

section Texts

variable {rank : Nat} {tie : DecimalTie}

theorem write_of_leading {layout : DecimalLayout} {d : Decimal}
    (h : layout.positionalFrom ≤ d.leading) (h' : d.leading ≤ layout.positionalTo) :
    d.write layout =
      writePositional layout.pointZero (decimalDigits d.digits) (d.leading + 1) := by
  have hrange : (layout.positionalFrom ≤ d.leading && d.leading ≤ layout.positionalTo) = true := by
    simp [h, h']
  exact if_pos hrange

theorem write_of_not_leading {layout : DecimalLayout} {d : Decimal}
    (h : ¬ (layout.positionalFrom ≤ d.leading ∧ d.leading ≤ layout.positionalTo)) :
    d.write layout = writeScientific (decimalDigits d.digits) d.leading := by
  have hrange :
      ¬ (layout.positionalFrom ≤ d.leading && d.leading ≤ layout.positionalTo) = true := by
    simpa using h
  exact if_neg hrange

/-- The text of a magnitude among values. -/
def magnitudeDigits (rank : Nat) : List Char :=
  if rank = 0 then ['0']
  else writePositional false (decimalDigits (shortestOfRank .up rank).digits)
    ((shortestOfRank .up rank).leading + 1)

theorem magnitudeDigits_ne_nil (rank : Nat) : magnitudeDigits rank ≠ [] := by
  unfold magnitudeDigits
  split
  · exact List.cons_ne_nil _ _
  · exact writePositional_ne_nil Nat.toDigits_ne_nil

theorem digit_or_point_of_mem_magnitudeDigits {c : Char} (h : c ∈ magnitudeDigits rank) :
    c.isDigit = true ∨ c = '.' := by
  unfold magnitudeDigits at h
  split at h
  · obtain rfl := List.mem_singleton.mp h
    exact .inl rfl
  · exact digit_or_point_of_mem_writePositional (fun _ => Token.isDigit_of_mem_decimalDigits) h

theorem write_numberLayout (negative : Bool) {rank : Fin (infinityRank + 1)}
    (h : rank.val < infinityRank) : Double.write Value.numberLayout (.ranked negative rank) =
      (if negative then ['-'] else []) ++ magnitudeDigits rank := by
  rw [Double.write, magnitudeDigits]
  congr 1
  by_cases hzero : rank.val = 0
  · rw [if_pos hzero, if_pos hzero]
    rfl
  · obtain ⟨hlow, hhigh⟩ := leading_bounds .up (Nat.pos_of_ne_zero hzero) h
    rw [if_neg hzero, if_neg hzero, if_neg h.ne]
    exact write_of_leading hlow hhigh

/-- The form of a magnitude in documents where it has no exponent. -/
theorem magnitudeText_of_leading (h : 0 < rank)
    (hlow : 1 / 10 ^ 5 ≤ magnitude rank) (hhigh : magnitude rank < 10 ^ 16) :
    magnitudeText rank = writePositional true (decimalDigits (shortestOfRank .even rank).digits)
      ((shortestOfRank .even rank).leading + 1) := by
  have hlow' : ¬ (shortestOfRank .even rank).leading < -5 :=
    mt (leading_lt_minus_five_iff .even h).mp (not_lt.mpr hlow)
  have hhigh' := (leading_lt_sixteen_iff .even h).mpr hhigh
  rw [magnitudeText, if_neg h.ne']
  exact write_of_leading (Int.not_lt.mp hlow') (Int.lt_add_one_iff.mp hhigh')

theorem magnitudeText_of_not_leading (h : 0 < rank)
    (hout : magnitude rank < 1 / 10 ^ 5 ∨ 10 ^ 16 ≤ magnitude rank) :
    magnitudeText rank = writeScientific (decimalDigits (shortestOfRank .even rank).digits)
      (shortestOfRank .even rank).leading := by
  rw [magnitudeText, if_neg h.ne']
  refine write_of_not_leading ?_
  rintro ⟨hlow, hhigh⟩
  rcases hout with hsmall | hlarge
  · exact absurd ((leading_lt_minus_five_iff .even h).mpr hsmall) (Int.not_lt.mpr hlow)
  · have hlt := (leading_lt_sixteen_iff .even h).mp (Int.lt_add_one_iff.mpr hhigh)
    exact absurd hlt (not_lt.mpr hlarge)

theorem one_le_magnitude_of_whole (h : 0 < rank) (hwhole : IsWhole rank) : 1 ≤ magnitude rank := by
  obtain ⟨n, hn⟩ := hwhole
  have hunits := unitsOfRank_pos h
  rw [magnitude_eq_natCast_iff.mp hn] at hunits
  rw [hn]
  exact_mod_cast Nat.pos_of_mul_pos_right hunits

/-- A whole number that is not large has one shortest decimal. -/
theorem shortestOfRank_even_of_whole (h : 0 < rank) (hwhole : IsWhole rank)
    (hsmall : magnitude rank < 10 ^ 16) : shortestOfRank .even rank = shortestOfRank .up rank := by
  obtain ⟨n, hn⟩ := hwhole
  rcases shortestOfRank_tie h with heq | ⟨digits, exponent, heven, hup, -⟩
  · exact heq
  · have hvalue := value_shortestOfRank .even h hn hsmall
    rw [← value_shortestOfRank .up h hn hsmall, heven, hup, Decimal.value, Decimal.value] at hvalue
    have hsame : (digits : ℚ) = (digits + 1 : Nat) :=
      mul_right_cancel₀ (zpow_ne_zero exponent (by norm_num)) hvalue
    exact absurd (Nat.cast_injective hsame) (by omega)

/-- A whole number that is not large has a zero after the point in a document, and no point among
values. -/
theorem magnitudeText_of_whole (hwhole : IsWhole rank) (hsmall : magnitude rank < 10 ^ 16) :
    magnitudeText rank = magnitudeDigits rank ++ ['.', '0'] ∧
      ∀ c ∈ magnitudeDigits rank, c.isDigit = true := by
  rcases Nat.eq_zero_or_pos rank with rfl | hpos
  · exact ⟨rfl, by simp [magnitudeDigits]⟩
  · have hnonneg := exponent_nonneg .up hpos hwhole
    have hone := one_le_magnitude_of_whole hpos hwhole
    have hlow : 1 / 10 ^ 5 ≤ magnitude rank := le_trans (by norm_num) hone
    rw [magnitudeText_of_leading hpos hlow hsmall, magnitudeDigits, if_neg hpos.ne',
      shortestOfRank_even_of_whole hpos hwhole hsmall, writePositional_of_nonneg hnonneg,
      writePositional_of_nonneg hnonneg]
    refine ⟨by simp, fun c hc => ?_⟩
    rw [if_neg Bool.false_ne_true, List.append_nil] at hc
    rcases List.mem_append.mp hc with hc | hc
    · exact Token.isDigit_of_mem_decimalDigits hc
    · exact isDigit_of_mem_replicate hc

/-- Zero is the only whole number whose form starts with a zero. -/
theorem magnitudeDigits_eq_zero_iff (hwhole : IsWhole rank) :
    magnitudeDigits rank = ['0'] ↔ rank = 0 := by
  constructor
  · intro htext
    by_contra hne
    have hpos := Nat.pos_of_ne_zero hne
    rw [magnitudeDigits, if_neg hne,
      writePositional_of_nonneg (exponent_nonneg .up hpos hwhole)] at htext
    have hdigits := digits_pos_of_roundsTo hpos (roundsTo_shortestOfRank .up hpos)
    obtain ⟨c, cs, hcs, hc⟩ := Token.exists_decimalDigits_eq_cons hdigits
    rw [hcs] at htext
    exact hc (List.cons.inj htext).1
  · rintro rfl
    rfl

/-- A number with a fraction whose first digit is near the point has the same text in documents and
among values if it has one shortest decimal. -/
theorem magnitudeText_of_fraction (hfraction : ¬ IsWhole rank) (hlow : 1 / 10 ^ 5 ≤ magnitude rank)
    (hhigh : magnitude rank < 10 ^ 16) :
    (magnitudeText rank).length = (magnitudeDigits rank).length ∧
      (magnitudeText rank = magnitudeDigits rank ↔
        shortestOfRank .even rank = shortestOfRank .up rank) := by
  have hpos := pos_of_fraction hfraction
  have hneg (tie : DecimalTie) := exponent_neg tie hpos hfraction
  rw [magnitudeText_of_leading hpos hlow hhigh, magnitudeDigits, if_neg hpos.ne',
    writePositional_of_neg (hneg .even)]
  rcases shortestOfRank_tie hpos with heq | ⟨digits, exponent, heven, hup, hparity, -⟩
  · rw [heq]
    simp
  · have hlength := length_decimalDigits_succ hparity
    have hlead : Decimal.leading ⟨digits + 1, exponent⟩ = Decimal.leading ⟨digits, exponent⟩ := by
      rw [Decimal.leading, Decimal.leading, hlength]
    rw [heven, hup, hlead]
    refine ⟨length_writePositional hlength.symm _ _, iff_of_false (fun htext => ?_) (by simp)⟩
    have hdigits := congrArg (Nat.ofDigitChars 10 · 0) (writePositional_inj hlength.symm htext)
    simp only [decimalDigits, Nat.ofDigitChars_ten_toDigits] at hdigits
    omega

theorem leading_even_eq_up (h : 0 < rank) :
    (shortestOfRank .even rank).leading = (shortestOfRank .up rank).leading := by
  rcases shortestOfRank_tie h with heq | ⟨digits, exponent, heven, hup, hparity, -⟩
  · rw [heq]
  · rw [heven, hup, Decimal.leading, Decimal.leading, length_decimalDigits_succ hparity]

/-- A large number stands nowhere in its form with an exponent. -/
theorem not_infix_of_large (negative : Bool) (hfinite : rank < infinityRank)
    (hlarge : 10 ^ 16 ≤ magnitude rank) :
    ¬ magnitudeDigits rank <:+: (if negative then ['-'] else []) ++ magnitudeText rank := by
  have hunits : 2 ^ 52 * 2 ^ unitExponent ≤ unitsOfRank rank := by
    refine natCast_le_magnitude_iff.mp (le_trans ?_ hlarge)
    norm_num
  have hpos : 0 < rank := by
    refine Nat.pos_of_ne_zero ?_
    rintro rfl
    exact absurd hunits (by decide +kernel)
  have hwhole := isWhole_of_le hunits
  have hnonneg (tie : DecimalTie) := exponent_nonneg tie hpos hwhole
  have hlead := mt (leading_lt_sixteen_iff .up hpos).mp (not_lt.mpr hlarge)
  have hfar := (leading_bounds .up hpos hfinite).2
  have hsame := leading_even_eq_up hpos
  have hlength (tie : DecimalTie) : (shortestOfRank tie rank).leading =
      (shortestOfRank tie rank).exponent +
        (decimalDigits (shortestOfRank tie rank).digits).length - 1 := rfl
  have heven := hlength .even
  have hup := hlength .up
  have hnonneg' := hnonneg .even
  have hthree : (decimalDigits (shortestOfRank .up rank).leading.natAbs).length ≤ 3 :=
    (Nat.length_toDigits_le_iff (by decide) (by decide)).mpr (by omega)
  rw [magnitudeText_of_not_leading hpos (.inr hlarge), magnitudeDigits, if_neg hpos.ne',
    writePositional_of_nonneg (hnonneg .up), if_neg Bool.false_ne_true, List.append_nil, hsame]
  have htext : (decimalDigits (shortestOfRank .up rank).digits ++
      List.replicate (shortestOfRank .up rank).exponent.toNat '0').length =
        (shortestOfRank .up rank).leading + 1 := by
    have := hnonneg .up
    rw [List.length_append, List.length_replicate]
    omega
  refine not_infix_writeScientific_of_digits negative (fun c hc => ?_) (by omega) (by omega)
    (by omega)
  rcases List.mem_append.mp hc with hc | hc
  · exact Token.isDigit_of_mem_decimalDigits hc
  · exact isDigit_of_mem_replicate hc

/-- Nor does a small one. -/
theorem not_infix_of_small (negative : Bool) (hpos : 0 < rank)
    (hsmall : magnitude rank < 1 / 10 ^ 5) :
    ¬ magnitudeDigits rank <:+: (if negative then ['-'] else []) ++ magnitudeText rank := by
  have hlead := (leading_lt_minus_five_iff .up hpos).mpr hsmall
  have hzero : ['0', '.'] <:+: magnitudeDigits rank := by
    rw [magnitudeDigits, if_neg hpos.ne', writePositional_of_nonpos (by omega)]
    exact List.IsPrefix.isInfix ⟨_, rfl⟩
  have hdigits := digits_pos_of_roundsTo hpos (roundsTo_shortestOfRank .even hpos)
  obtain ⟨c, cs, hcs, hc⟩ := Token.exists_decimalDigits_eq_cons hdigits
  rw [magnitudeText_of_not_leading hpos (.inl hsmall)]
  intro h
  refine not_infix_writeScientific_of_zero negative
    (fun c hc => Token.isDigit_of_mem_decimalDigits hc) ?_ (hzero.trans h)
  rw [hcs]
  exact fun heq => hc (Option.some.inj heq)

end Texts

end Criteria
