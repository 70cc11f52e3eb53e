import Criteria.Proofs.Double.Shortest
import Criteria.Proofs.Json.Lexing

/-!
# Texts of numbers

A finite number is written as a JSON number from which it can be told. An integer has neither a
point nor an exponent, and a floating-point number has one of them and spells a decimal that is
rounded to it. So no two numbers have the same text.

## Main definitions

- `Token.spell`: the text of a number by its parts
- `NumberText.magnitude`: the number that a text spells
- `NumberText.Denotes`: the number that is written as a text

## Main statements

- `Token.unsignedNumber?_spell`: a text is read by its parts
- `Number.exists_denotes`: a finite number is written as a text that denotes it
- `Number.eq_of_text_eq`: finite numbers with the same text are the same
-/

namespace Criteria

namespace Token

variable {cs rest whole : List Char}

/-- One or more digits. -/
def IsDigits (cs : List Char) : Prop :=
  cs ≠ [] ∧ ∀ c ∈ cs, c.isDigit = true

/-- The digits of a whole number. -/
def IsWhole (cs : List Char) : Prop :=
  cs = ['0'] ∨ IsDigits cs ∧ cs.head? ≠ some '0'

/-- A text that starts with no digit. -/
def EndsDigits (rest : List Char) : Prop :=
  ∀ c ∈ rest.head?, digitValue? c = none

theorem spanDigits_digits_append (hdigits : ∀ c ∈ cs, c.isDigit = true) (hrest : EndsDigits rest) :
    spanDigits (cs ++ rest) = (cs.map digitOf, rest) := by
  induction cs with
  | nil =>
    cases rest with
    | nil => rfl
    | cons c rest => rw [List.nil_append, spanDigits, hrest c rfl, List.map_nil]
  | cons c cs ih =>
    rw [List.cons_append, spanDigits, digitValue?_of_isDigit (hdigits c List.mem_cons_self),
      ih fun d hd => hdigits d (List.mem_cons_of_mem c hd), List.map_cons]

theorem digits?_digits_append (hdigits : IsDigits cs) (hrest : EndsDigits rest) :
    digits? (cs ++ rest) = some (cs.map digitOf, rest) := by
  rw [digits?, spanDigits_digits_append hdigits.2 hrest]
  cases cs with
  | nil => exact absurd rfl hdigits.1
  | cons c cs => rfl

theorem whole?_whole_append (hwhole : IsWhole cs) (hrest : EndsDigits rest) :
    whole? (cs ++ rest) = some (cs.map digitOf, rest) := by
  rcases hwhole with rfl | ⟨hdigits, hhead⟩
  · rfl
  · cases cs with
    | nil => exact absurd rfl hdigits.1
    | cons c cs =>
      have hzero : c ≠ '0' := fun h => hhead (congrArg some h)
      rw [List.cons_append, whole?_of_ne hzero]
      exact digits?_digits_append hdigits hrest

theorem isDigits_decimalDigits (n : Nat) : IsDigits (decimalDigits n) :=
  ⟨Nat.toDigits_ne_nil, fun _ => isDigit_of_mem_decimalDigits⟩

theorem ofDigits_map_digitOf (cs : List Char) :
    ofDigits (cs.map digitOf) = Nat.ofDigitChars 10 cs 0 := by
  rw [ofDigits, List.foldl_map, Nat.ofDigitChars_eq_foldl]
  congr 1
  funext n c
  rw [Nat.mul_comm]
  rfl

theorem ofDigits_decimalDigits (n : Nat) : ofDigits ((decimalDigits n).map digitOf) = n := by
  rw [ofDigits_map_digitOf]
  exact Nat.ofDigitChars_ten_toDigits

/-- The text of an exponent. -/
def spellExponent (exponent : Option Int) : List Char :=
  exponent.elim [] fun e => 'e' :: (if e < 0 then '-' else '+') :: decimalDigits e.natAbs

/-- The text of a number by the digits before and after the point and the power of ten. -/
def spell (whole : List Char) (fraction : Option (List Char)) (exponent : Option Int) :
    List Char :=
  whole ++ (fraction.elim [] ('.' :: ·) ++ spellExponent exponent)

theorem endsDigits_spellExponent (exponent : Option Int) : EndsDigits (spellExponent exponent) := by
  intro c hc
  cases exponent with
  | none => cases hc
  | some e =>
    obtain rfl : 'e' = c := Option.some.inj hc
    rfl

theorem exponent?_spellExponent (exponent : Option Int) :
    exponent? (spellExponent exponent) = some (exponent, []) := by
  cases exponent with
  | none => rfl
  | some e =>
    have hends : EndsDigits [] := nofun
    have hdigits := digits?_digits_append (isDigits_decimalDigits e.natAbs) hends
    rw [List.append_nil] at hdigits
    by_cases hsign : e < 0
    · have hspell : spellExponent (some e) = 'e' :: '-' :: decimalDigits e.natAbs := by
        simp [spellExponent, hsign]
      simp [hspell, exponent?, hdigits, ofDigits_decimalDigits, abs_of_neg hsign]
    · have hspell : spellExponent (some e) = 'e' :: '+' :: decimalDigits e.natAbs := by
        simp [spellExponent, hsign]
      simp [hspell, exponent?, hdigits, ofDigits_decimalDigits, abs_of_nonneg (not_lt.mp hsign)]

theorem fraction?_spellFraction {fraction : Option (List Char)}
    (hfraction : ∀ cs ∈ fraction, IsDigits cs) (exponent : Option Int) :
    fraction? (fraction.elim [] ('.' :: ·) ++ spellExponent exponent) =
      some (fraction.map (List.map digitOf), spellExponent exponent) := by
  cases fraction with
  | none =>
    cases exponent with
    | none => rfl
    | some e => exact fraction?_of_ne (by decide) _
  | some cs =>
    have hdigits := digits?_digits_append (hfraction cs rfl) (endsDigits_spellExponent exponent)
    simp [fraction?, hdigits]

/-- A text is read by its parts. -/
theorem unsignedNumber?_spell {fraction : Option (List Char)} (negative : Bool)
    (hwhole : IsWhole whole) (hfraction : ∀ cs ∈ fraction, IsDigits cs) (exponent : Option Int) :
    unsignedNumber? negative (spell whole fraction exponent) =
      some (⟨negative, whole.map digitOf, fraction.map (List.map digitOf), exponent⟩, []) := by
  have hends : EndsDigits (fraction.elim [] ('.' :: ·) ++ spellExponent exponent) := by
    cases fraction with
    | none => exact endsDigits_spellExponent exponent
    | some cs =>
      intro c hc
      obtain rfl : '.' = c := Option.some.inj hc
      rfl
  simp [unsignedNumber?, spell, whole?_whole_append hwhole hends,
    fraction?_spellFraction hfraction, exponent?_spellExponent]

end Token

/-- The number that a text spells, without its sign. -/
def NumberText.magnitude (t : NumberText) : ℚ :=
  Token.ofDigits (t.whole ++ t.fraction.getD []) *
    10 ^ (t.exponent.getD 0 - (t.fraction.getD []).length)

/-- A text without a sign is read as a number with a fraction or with an exponent. -/
def Spells (cs : List Char) (x : ℚ) : Prop :=
  ∀ negative, ∃ t, Token.unsignedNumber? negative cs = some (t, []) ∧ t.negative = negative ∧
    (t.fraction.isSome ∨ t.exponent.isSome) ∧ t.magnitude = x

section Spells

variable {cs digits whole : List Char} {fraction : Option (List Char)} {x : ℚ}

theorem spells_of_eq_spell (exponent : Option Int) (hwhole : Token.IsWhole whole)
    (hfraction : ∀ cs ∈ fraction, Token.IsDigits cs) (hparts : fraction.isSome ∨ exponent.isSome)
    (hcs : cs = Token.spell whole fraction exponent)
    (hx : x = Nat.ofDigitChars 10 (whole ++ fraction.getD []) 0 *
      10 ^ (exponent.getD 0 - (fraction.getD []).length)) : Spells cs x := by
  intro negative
  have hread := Token.unsignedNumber?_spell negative hwhole hfraction exponent
  rw [← hcs] at hread
  refine ⟨_, hread, rfl, by simpa using hparts, ?_⟩
  have hdigits : whole.map Token.digitOf ++ (fraction.map (List.map Token.digitOf)).getD [] =
      (whole ++ fraction.getD []).map Token.digitOf := by
    cases fraction <;> simp
  have hlength : ((fraction.map (List.map Token.digitOf)).getD []).length =
      (fraction.getD []).length := by
    cases fraction <;> simp
  rw [NumberText.magnitude, hdigits, hlength, Token.ofDigits_map_digitOf, hx]

theorem isDigit_of_mem_replicate {n : Nat} {c : Char} (hc : c ∈ List.replicate n '0') :
    c.isDigit = true := by
  rw [List.eq_of_mem_replicate hc]
  rfl

theorem isDigits_append (hne : cs ≠ [] ∨ digits ≠ []) (hcs : ∀ c ∈ cs, c.isDigit = true)
    (hdigits : ∀ c ∈ digits, c.isDigit = true) : Token.IsDigits (cs ++ digits) := by
  refine ⟨fun hnil => ?_, fun c hc => (List.mem_append.mp hc).elim (hcs c) (hdigits c)⟩
  obtain ⟨hcs, hdigits⟩ := List.append_eq_nil_iff.mp hnil
  exact hne.elim (· hcs) (· hdigits)

theorem spells_zeros_before (n : Nat) (hdigits : Token.IsDigits digits) :
    Spells ('0' :: '.' :: (List.replicate n '0' ++ digits))
      (Nat.ofDigitChars 10 digits 0 * 10 ^ (-(n + digits.length : Int))) := by
  have hfraction : ∀ cs ∈ some (List.replicate n '0' ++ digits), Token.IsDigits cs := by
    rintro cs ⟨⟩
    exact isDigits_append (.inr hdigits.1) (fun _ => isDigit_of_mem_replicate) hdigits.2
  have hvalue : Nat.ofDigitChars 10 (['0'] ++ (List.replicate n '0' ++ digits)) 0 =
      Nat.ofDigitChars 10 digits 0 := by
    rw [Nat.ofDigitChars_append, Nat.ofDigitChars_append]
    simp [Nat.ofDigitChars_cons]
  refine spells_of_eq_spell none (.inl rfl) hfraction (.inl rfl)
    (by simp [Token.spell, Token.spellExponent]) ?_
  rw [Option.getD_some, hvalue, List.length_append, List.length_replicate]
  simp

theorem spells_zeros_after (n : Nat) (hdigits : Token.IsDigits digits)
    (hhead : digits.head? ≠ some '0') :
    Spells (digits ++ List.replicate n '0' ++ ['.', '0'])
      (Nat.ofDigitChars 10 digits 0 * 10 ^ n) := by
  have hwhole : Token.IsWhole (digits ++ List.replicate n '0') := by
    refine .inr ⟨isDigits_append (.inl hdigits.1) hdigits.2 fun _ => isDigit_of_mem_replicate, ?_⟩
    rwa [List.head?_append_of_ne_nil _ hdigits.1]
  have hfraction : ∀ cs ∈ some ['0'], Token.IsDigits cs := by
    rintro cs ⟨⟩
    exact ⟨by simp, by simp⟩
  have hvalue : Nat.ofDigitChars 10 (digits ++ List.replicate n '0' ++ ['0']) 0 =
      10 ^ n * Nat.ofDigitChars 10 digits 0 * 10 := by
    rw [Nat.ofDigitChars_append, Nat.ofDigitChars_append, Nat.ofDigitChars_replicate_zero]
    simp [Nat.ofDigitChars_cons, Nat.mul_comm]
  refine spells_of_eq_spell none hwhole hfraction (.inl rfl)
    (by simp [Token.spell, Token.spellExponent]) ?_
  rw [Option.getD_some, hvalue]
  simp
  ring

theorem spells_point_among {places : Nat} (hdigits : Token.IsDigits digits)
    (hhead : digits.head? ≠ some '0') (hpos : 0 < places) (hlt : places < digits.length) :
    Spells (digits.take places ++ '.' :: digits.drop places)
      (Nat.ofDigitChars 10 digits 0 * 10 ^ (places - digits.length : Int)) := by
  have hwhole : Token.IsWhole (digits.take places) := by
    refine .inr ⟨⟨?_, fun c hc => hdigits.2 c (List.mem_of_mem_take hc)⟩, ?_⟩
    · simp only [ne_eq, List.take_eq_nil_iff, not_or]
      exact ⟨by omega, hdigits.1⟩
    · rwa [List.head?_take, if_neg (by omega)]
  have hfraction : ∀ cs ∈ some (digits.drop places), Token.IsDigits cs := by
    rintro cs ⟨⟩
    refine ⟨?_, fun c hc => hdigits.2 c (List.mem_of_mem_drop hc)⟩
    simp only [ne_eq, List.drop_eq_nil_iff]
    omega
  have hlength : (places - digits.length : Int) = 0 - ((digits.drop places).length : Int) := by
    rw [List.length_drop]
    omega
  refine spells_of_eq_spell none hwhole hfraction (.inl rfl)
    (by simp [Token.spell, Token.spellExponent]) ?_
  rw [hlength, Option.getD_some, Option.getD_none, List.take_append_drop]

/-- Digits with a point before them, after them or among them, and with zeros between the two. -/
theorem spells_writePositional (hdigits : Token.IsDigits digits) (hhead : digits.head? ≠ some '0')
    (point : Int) :
    Spells (writePositional true digits point)
      (Nat.ofDigitChars 10 digits 0 * 10 ^ (point - digits.length)) := by
  unfold writePositional
  split
  case isTrue hpoint =>
    have hexponent : point - digits.length = -(((-point).toNat : Int) + digits.length) := by omega
    rw [hexponent]
    exact spells_zeros_before _ hdigits
  case isFalse hpoint =>
    have hplaces : (point.toNat : Int) = point := by omega
    dsimp only
    split
    case isTrue hfits =>
      have hexponent : point - digits.length = ((point.toNat - digits.length : Nat) : Int) := by
        omega
      rw [hexponent, zpow_natCast]
      exact spells_zeros_after _ hdigits hhead
    case isFalse hfits =>
      rw [← hplaces]
      exact spells_point_among hdigits hhead (by omega) (Nat.not_le.mp hfits)

/-- Digits with a point after the first and an exponent. -/
theorem spells_writeScientific (hdigits : Token.IsDigits digits) (hhead : digits.head? ≠ some '0')
    (exponent : Int) :
    Spells (writeScientific digits exponent)
      (Nat.ofDigitChars 10 digits 0 * 10 ^ (exponent - (digits.length - 1))) := by
  cases digits with
  | nil => exact absurd rfl hdigits.1
  | cons c rest =>
    have hwhole : Token.IsWhole [c] :=
      .inr ⟨⟨by simp, by simpa using hdigits.2 c List.mem_cons_self⟩, hhead⟩
    cases rest with
    | nil =>
      have hfraction : ∀ cs ∈ (none : Option (List Char)), Token.IsDigits cs := nofun
      refine spells_of_eq_spell (some exponent) hwhole hfraction (.inr rfl) rfl ?_
      simp
    | cons d rest =>
      have hfraction : ∀ cs ∈ some (d :: rest), Token.IsDigits cs := by
        rintro cs ⟨⟩
        exact ⟨by simp, fun x hx => hdigits.2 x (List.mem_cons_of_mem c hx)⟩
      refine spells_of_eq_spell (some exponent) hwhole hfraction (.inl rfl) rfl ?_
      simp

/-- A decimal is written as a text that spells it. -/
theorem spells_write {d : Decimal} (h : 0 < d.digits) : Spells (d.write jsonLayout) d.value := by
  have hdigits := Token.isDigits_decimalDigits d.digits
  have hhead : (decimalDigits d.digits).head? ≠ some '0' := by
    obtain ⟨c, cs, hcs, hc⟩ := Token.exists_decimalDigits_eq_cons h
    rw [hcs]
    exact fun hzero => hc (Option.some.inj hzero)
  have hvalue : Nat.ofDigitChars 10 (decimalDigits d.digits) 0 = d.digits :=
    Nat.ofDigitChars_ten_toDigits
  have hpositional := spells_writePositional hdigits hhead
    (d.exponent + (decimalDigits d.digits).length - 1 + 1)
  have hscientific := spells_writeScientific hdigits hhead
    (d.exponent + (decimalDigits d.digits).length - 1)
  rw [hvalue] at hpositional hscientific
  rw [Decimal.write, Decimal.value]
  split
  · rwa [show d.exponent + (decimalDigits d.digits).length - 1 + 1 -
      (decimalDigits d.digits).length = d.exponent by omega] at hpositional
  · rwa [show d.exponent + (decimalDigits d.digits).length - 1 -
      ((decimalDigits d.digits).length - 1) = d.exponent by omega] at hscientific

/-- A text of a number starts with a digit, and so with no sign. -/
theorem Spells.number?_eq (h : Spells cs x) :
    Token.number? cs = Token.unsignedNumber? false cs := by
  obtain ⟨t, ht, -⟩ := h false
  cases cs with
  | nil => rfl
  | cons c cs =>
    refine Token.number?_of_ne ?_ cs
    rintro rfl
    cases ht

end Spells

/-- Zero is rounded to the rank of zero. -/
theorem roundsTo_zero : RoundsTo 0 0 := by
  have hunits : unitsOfRank 0 = 0 := by decide
  have hhalves : inHalves 0 = 0 := zero_mul _
  rw [RoundsTo, Between, hunits, hhalves]
  simp

/-- A decimal that is rounded to another rank has digits. -/
theorem digits_pos_of_roundsTo {rank : Nat} {d : Decimal} (h : 0 < rank)
    (hd : RoundsTo rank d.value) : 0 < d.digits := by
  rcases Nat.eq_zero_or_pos d.digits with hzero | hpos
  · have hvalue : d.value = 0 := by simp [Decimal.value, hzero]
    rw [hvalue] at hd
    have := roundsTo_zero.unique hd
    omega
  · exact hpos

/-- A text denotes an integer if it is the digits of that integer alone, and otherwise it denotes
the floating-point number to which it is rounded. -/
def NumberText.Denotes (t : NumberText) : Number → Prop
  | .int i => (t.fraction = none ∧ t.exponent = none) ∧ t.negative = decide (i < 0) ∧
      Token.ofDigits t.whole = i.natAbs
  | .double .nan => False
  | .double (.ranked negative rank) => (t.fraction.isSome ∨ t.exponent.isSome) ∧
      t.negative = negative ∧ RoundsTo rank t.magnitude

theorem NumberText.Denotes.unique {t : NumberText} {m n : Number} (hm : t.Denotes m)
    (hn : t.Denotes n) : m = n := by
  cases m with
  | int i =>
    obtain ⟨⟨hfraction, hexponent⟩, hsign, habs⟩ := hm
    cases n with
    | int j =>
      obtain ⟨-, hsign', habs'⟩ := hn
      have hlt : i < 0 ↔ j < 0 := decide_eq_decide.mp (hsign.symm.trans hsign')
      have heq : i.natAbs = j.natAbs := habs.symm.trans habs'
      congr 1
      omega
    | double y =>
      cases y with
      | nan => exact hn.elim
      | ranked negative rank =>
        obtain ⟨hparts, -⟩ := hn
        simp [hfraction, hexponent] at hparts
  | double x =>
    cases x with
    | nan => exact hm.elim
    | ranked negative rank =>
      obtain ⟨hparts, hsign, hrank⟩ := hm
      cases n with
      | int j =>
        obtain ⟨⟨hfraction, hexponent⟩, -⟩ := hn
        simp [hfraction, hexponent] at hparts
      | double y =>
        cases y with
        | nan => exact hn.elim
        | ranked negative' rank' =>
          obtain ⟨-, hsign', hrank'⟩ := hn
          rw [← hsign.symm.trans hsign', Fin.ext (hrank.unique hrank')]

/-- The text of a magnitude. -/
def magnitudeText (rank : Nat) : List Char :=
  if rank = 0 then ['0', '.', '0'] else (shortestOfRank jsonLayout.tie rank).write jsonLayout

theorem write_ranked (negative : Bool) {rank : Fin (infinityRank + 1)}
    (h : rank.val ≠ infinityRank) : Double.write jsonLayout (.ranked negative rank) =
      (if negative then ['-'] else []) ++ magnitudeText rank := by
  rw [Double.write, magnitudeText, if_neg h]
  rfl

/-- The text of a magnitude spells a decimal that is rounded to it. -/
theorem exists_spells_magnitudeText (rank : Nat) :
    ∃ x, Spells (magnitudeText rank) x ∧ RoundsTo rank x := by
  rcases Nat.eq_zero_or_pos rank with rfl | hpos
  · have hfraction : ∀ cs ∈ some ['0'], Token.IsDigits cs := by
      rintro cs ⟨⟩
      exact ⟨by simp, by simp⟩
    refine ⟨0, spells_of_eq_spell none (.inl rfl) hfraction (.inl rfl) rfl ?_,
      roundsTo_zero⟩
    simp [Nat.ofDigitChars_cons]
  · have hrank := roundsTo_shortestOfRank jsonLayout.tie hpos
    rw [magnitudeText, if_neg (Nat.pos_iff_ne_zero.mp hpos)]
    exact ⟨_, spells_write (digits_pos_of_roundsTo hpos hrank), hrank⟩

namespace Number

/-- A finite number is written as a text that is read and denotes it. -/
theorem exists_denotes {n : Number} (h : n.toDouble.isFinite = true) :
    ∃ t, Token.number? n.text = some (t, []) ∧ t.Denotes n := by
  cases n with
  | int i =>
    exact ⟨_, Token.number?_intText i, ⟨rfl, rfl⟩, rfl, Token.ofDigits_decimalDigits i.natAbs⟩
  | double x =>
    cases x with
    | nan => cases h
    | ranked negative rank =>
      have hfinite : rank.val < infinityRank := of_decide_eq_true h
      obtain ⟨x, hspells, hrank⟩ := exists_spells_magnitudeText rank
      obtain ⟨t, ht, hsign, hparts, rfl⟩ := hspells negative
      refine ⟨t, ?_, hparts, hsign, hrank⟩
      rw [text, if_pos (show Double.isFinite (.ranked negative rank) = true from h),
        write_ranked negative (Nat.ne_of_lt hfinite)]
      cases negative with
      | true => exact ht
      | false => exact hspells.number?_eq.trans ht

/-- Finite numbers with the same text are the same. -/
theorem eq_of_text_eq {m n : Number} (hm : m.toDouble.isFinite = true)
    (hn : n.toDouble.isFinite = true) (h : m.text = n.text) : m = n := by
  obtain ⟨t, ht, hdenotes⟩ := exists_denotes hm
  obtain ⟨t', ht', hdenotes'⟩ := exists_denotes hn
  rw [h, ht'] at ht
  obtain rfl : t' = t := congrArg Prod.fst (Option.some.inj ht)
  exact hdenotes.unique hdenotes'

end Number

end Criteria
