import Criteria.Json.Printer
import Criteria.Json.Token

/-!
# The tokens of written text

The text of a document splits into the tokens of the document: each string is read with the
characters that were escaped in it, and each number ends where the text does not go on with a
character of a number.

## Main definitions

- `Token.EndsNumber`: what may follow a number
- `Number.ReadsBack`: the written form of a number denotes the number
- `Json.Legible`: all numbers of a document read back
- `Json.tokens`: the tokens of a document

## Main statements

- `Token.next?_quote`: a string that has been written is read
- `Number.readsBack_int`: integers of 64 bits read back
- `Token.scan_render`: the tokens of the text of a document
-/

namespace Criteria

namespace Token

section Strings

/-- How a character is read back: those without a simple escape as a 16-bit unit. -/
def pieceOf (c : Char) : Piece :=
  if c = '\n' ∨ c = '\r' ∨ c = '\t' ∨ c = '\x08' ∨ c = '\x0c' ∨ 0x20 ≤ c.toNat then .char c
  else .unit c.toNat

theorem unitValue?_hexDigit {n : Nat} (h : n < 0x20) :
    unitValue? '0' '0' (hexDigit (n / 16)) (hexDigit (n % 16)) = some n := by
  revert n
  decide

theorem pieces?_cons_of_plain {c : Char} (hquote : c ≠ '"') (hslash : c ≠ '\\')
    (hcode : 0x20 ≤ c.toNat) (rest : List Char) :
    pieces? (c :: rest) = (pieces? rest).map fun (following, after) =>
      (.char c :: following, after) := by
  have hcontrol : (decide (c.toNat < 0x20) || decide (c = '\\')) = false := by
    simp [hslash, hcode]
  rw [pieces?]
  · rw [hcontrol]
    cases pieces? rest <;> rfl
  all_goals simp_all

/-- The character of a simple escape is read as itself. -/
theorem pieces?_simpleEscape {e c : Char} (hunit : e ≠ 'u') (h : simpleEscape? e = some c)
    (rest : List Char) :
    pieces? ('\\' :: e :: rest) = (pieces? rest).map fun (following, after) =>
      (.char c :: following, after) := by
  rw [pieces?]
  · rw [h]
    cases pieces? rest <;> rfl
  · simp_all

/-- An escaped character is read as one piece. -/
theorem pieces?_escapeChar (c : Char) (rest : List Char) :
    pieces? (Json.escapeChar c ++ rest) = (pieces? rest).map fun (following, after) =>
      (pieceOf c :: following, after) := by
  unfold Json.escapeChar
  by_cases hquote : c = '"'
  · subst hquote
    exact pieces?_simpleEscape (by decide) rfl rest
  by_cases hslash : c = '\\'
  · subst hslash
    exact pieces?_simpleEscape (by decide) rfl rest
  by_cases hline : c = '\n'
  · subst hline
    exact pieces?_simpleEscape (by decide) rfl rest
  by_cases hreturn : c = '\r'
  · subst hreturn
    exact pieces?_simpleEscape (by decide) rfl rest
  by_cases htab : c = '\t'
  · subst htab
    exact pieces?_simpleEscape (by decide) rfl rest
  by_cases hback : c = '\x08'
  · subst hback
    exact pieces?_simpleEscape (by decide) rfl rest
  by_cases hfeed : c = '\x0c'
  · subst hfeed
    exact pieces?_simpleEscape (by decide) rfl rest
  rw [if_neg hquote, if_neg hslash, if_neg hline, if_neg hreturn, if_neg htab, if_neg hback,
    if_neg hfeed]
  by_cases hcontrol : c.toNat < 0x20
  · have hpiece : pieceOf c = .unit c.toNat := by
      have hplain : ¬ 0x20 ≤ c.toNat := by omega
      simp [pieceOf, hline, hreturn, htab, hback, hfeed, hplain]
    rw [if_pos hcontrol, hpiece]
    simp only [List.cons_append, List.nil_append]
    rw [pieces?, unitValue?_hexDigit hcontrol]
    cases pieces? rest <;> rfl
  · have hcode : 0x20 ≤ c.toNat := by omega
    have hpiece : pieceOf c = .char c := by simp [pieceOf, hcode]
    rw [if_neg hcontrol, hpiece]
    exact pieces?_cons_of_plain hquote hslash hcode rest

theorem joinPieces?_unit {code : Nat} (h : code < 0xD800) (rest : List Piece) :
    joinPieces? (.unit code :: rest) = (joinPieces? rest).map (Char.ofNat code :: ·) := by
  have hhigh : ¬ 0xD800 ≤ code := by omega
  have hlow : ¬ 0xDC00 ≤ code := by omega
  match rest with
  | [] => simp [joinPieces?, hhigh]
  | .char c :: rest => simp [joinPieces?, hhigh]
  | .unit low :: rest =>
    rw [joinPieces?]
    simp [hhigh, hlow]

theorem joinPieces?_map_pieceOf (cs : List Char) : joinPieces? (cs.map pieceOf) = some cs := by
  induction cs with
  | nil => rfl
  | cons c rest ih =>
    rw [List.map_cons, pieceOf]
    split
    · rw [joinPieces?, ih]
      rfl
    · rename_i h
      have hcode : c.toNat < 0xD800 := by
        simp only [not_or] at h
        omega
      rw [joinPieces?_unit hcode, ih, Option.map_some, Char.ofNat_toNat]

theorem pieces?_flatMap_escapeChar (cs rest : List Char) :
    pieces? (cs.flatMap Json.escapeChar ++ '"' :: rest) = some (cs.map pieceOf, rest) := by
  induction cs with
  | nil => rfl
  | cons c cs ih =>
    rw [List.flatMap_cons, List.append_assoc, pieces?_escapeChar, ih]
    rfl

/-- A string that has been written is read, whatever follows it. -/
theorem next?_quote (s : String) (rest : List Char) :
    next? (Json.quote s ++ rest) = some (.string (some s), rest) := by
  have hpieces := pieces?_flatMap_escapeChar s.toList rest
  have hquote : Json.quote s ++ rest =
      '"' :: (s.toList.flatMap Json.escapeChar ++ '"' :: rest) := by
    simp [Json.quote]
  rw [hquote, next?, hpieces]
  simp [joinPieces?_map_pieceOf]

end Strings

section Numbers

/-- A number cannot go on with a text like this. -/
def EndsNumber (rest : List Char) : Prop :=
  ∀ c ∈ rest.head?, digitValue? c = none ∧ c ≠ '.' ∧ c ≠ 'e' ∧ c ≠ 'E'

variable {cs after rest : List Char}

theorem spanDigits_of_endsNumber (h : EndsNumber rest) : spanDigits rest = ([], rest) := by
  cases rest with
  | nil => rfl
  | cons c rest => rw [spanDigits, (h c rfl).1]

theorem spanDigits_append (h : EndsNumber rest) (cs : List Char) :
    spanDigits (cs ++ rest) = ((spanDigits cs).1, (spanDigits cs).2 ++ rest) := by
  induction cs with
  | nil => exact spanDigits_of_endsNumber h
  | cons c cs ih =>
    rw [List.cons_append, spanDigits, spanDigits]
    cases digitValue? c with
    | none => rfl
    | some digit => rw [ih]

theorem digits?_append (h : EndsNumber rest) {digits : List Nat}
    (hdigits : digits? cs = some (digits, after)) :
    digits? (cs ++ rest) = some (digits, after ++ rest) := by
  unfold digits? at hdigits ⊢
  rw [spanDigits_append h]
  cases hspan : spanDigits cs with
  | mk found following =>
    rw [hspan] at hdigits
    cases found with
    | nil => cases hdigits
    | cons digit found =>
      cases hdigits
      rfl

/-- Digits that are made into a value. -/
theorem digits?_bind_append {β : Type} (h : EndsNumber rest) {f : List Nat → β} {value : β}
    (hvalue : (do
      let (digits, after) ← digits? cs
      return (f digits, after)) = some (value, after)) :
    (do
      let (digits, after) ← digits? (cs ++ rest)
      return (f digits, after)) = some (value, after ++ rest) := by
  cases hdigits : digits? cs with
  | none =>
    rw [hdigits] at hvalue
    cases hvalue
  | some found =>
    rw [hdigits] at hvalue
    cases hvalue
    rw [digits?_append h hdigits]
    rfl

theorem whole?_of_ne {c : Char} (h : c ≠ '0') (cs : List Char) :
    whole? (c :: cs) = digits? (c :: cs) := by
  rw [whole?]
  simp_all

theorem whole?_append (h : EndsNumber rest) {whole : List Nat}
    (hwhole : whole? cs = some (whole, after)) :
    whole? (cs ++ rest) = some (whole, after ++ rest) := by
  cases cs with
  | nil => cases hwhole
  | cons c cs =>
    by_cases hzero : c = '0'
    · subst hzero
      cases hwhole
      rfl
    · rw [whole?_of_ne hzero] at hwhole
      rw [List.cons_append, whole?_of_ne hzero]
      exact digits?_append h hwhole

theorem fraction?_of_ne {c : Char} (h : c ≠ '.') (cs : List Char) :
    fraction? (c :: cs) = some (none, c :: cs) := by
  rw [fraction?]
  simp_all

theorem fraction?_append (h : EndsNumber rest) {fraction : Option (List Nat)}
    (hfraction : fraction? cs = some (fraction, after)) :
    fraction? (cs ++ rest) = some (fraction, after ++ rest) := by
  cases cs with
  | nil =>
    cases hfraction
    cases rest with
    | nil => rfl
    | cons c rest => exact fraction?_of_ne (h c rfl).2.1 rest
  | cons c cs =>
    by_cases hpoint : c = '.'
    · subst hpoint
      exact digits?_bind_append h hfraction
    · rw [fraction?_of_ne hpoint] at hfraction
      cases hfraction
      rw [List.cons_append, fraction?_of_ne hpoint]

theorem exponent?_append (h : EndsNumber rest) {exponent : Option Int}
    (hexponent : exponent? cs = some (exponent, after)) :
    exponent? (cs ++ rest) = some (exponent, after ++ rest) := by
  cases cs with
  | nil =>
    cases hexponent
    cases rest with
    | nil => rfl
    | cons c rest =>
      have hletter : (decide (c = 'e') || decide (c = 'E')) = false := by
        simp [(h c rfl).2.2]
      simp [exponent?, hletter]
  | cons c cs =>
    by_cases hletter : (decide (c = 'e') || decide (c = 'E')) = true
    · cases cs with
      | nil =>
        have hnone : exponent? [c] = none := by simp [exponent?, hletter, digits?, spanDigits]
        rw [hnone] at hexponent
        cases hexponent
      | cons sign cs =>
        -- the digits come after a sign, or at once
        rw [List.cons_append, List.cons_append]
        by_cases hminus : sign = '-'
        · subst hminus
          rw [exponent?, if_pos hletter] at hexponent ⊢
          exact digits?_bind_append (f := fun ds => some (-(ofDigits ds : Int))) h hexponent
        by_cases hplus : sign = '+'
        · subst hplus
          rw [exponent?, if_pos hletter] at hexponent ⊢
          exact digits?_bind_append (f := fun ds => some (ofDigits ds : Int)) h hexponent
        · have hcase (cs : List Char) : exponent? (c :: sign :: cs) = (do
              let (digits, after) ← digits? (sign :: cs)
              return (some (ofDigits digits : Int), after)) := by
            rw [exponent?]
            · exact if_pos hletter
            · simp_all
            · simp_all
          rw [hcase] at hexponent ⊢
          exact digits?_bind_append (f := fun ds => some (ofDigits ds : Int)) h hexponent
    · have hcase (cs : List Char) : exponent? (c :: cs) = some (none, c :: cs) := by
        unfold exponent?
        exact if_neg hletter
      rw [hcase] at hexponent
      cases hexponent
      exact hcase _

theorem unsignedNumber?_append (h : EndsNumber rest) {negative : Bool} {t : NumberText}
    (ht : unsignedNumber? negative cs = some (t, after)) :
    unsignedNumber? negative (cs ++ rest) = some (t, after ++ rest) := by
  unfold unsignedNumber? at ht ⊢
  cases hwhole : whole? cs with
  | none =>
    rw [hwhole] at ht
    cases ht
  | some whole =>
    rw [hwhole] at ht
    rw [whole?_append h hwhole]
    cases hfraction : fraction? whole.2 with
    | none =>
      simp [hfraction] at ht
    | some fraction =>
      cases hexponent : exponent? fraction.2 with
      | none => simp [hfraction, hexponent] at ht
      | some exponent =>
        simp only [Option.bind_eq_bind, Option.bind_some, hfraction, hexponent] at ht
        cases ht
        simp [fraction?_append h hfraction, exponent?_append h hexponent]

theorem number?_of_ne {c : Char} (h : c ≠ '-') (cs : List Char) :
    number? (c :: cs) = unsignedNumber? false (c :: cs) := by
  rw [number?]
  simp_all

/-- A number is read up to where it cannot go on. -/
theorem number?_append (h : EndsNumber rest) {t : NumberText}
    (ht : number? cs = some (t, after)) : number? (cs ++ rest) = some (t, after ++ rest) := by
  cases cs with
  | nil => cases ht
  | cons c cs =>
    by_cases hminus : c = '-'
    · subst hminus
      exact unsignedNumber?_append h ht
    · rw [number?_of_ne hminus] at ht
      rw [List.cons_append, number?_of_ne hminus]
      exact unsignedNumber?_append h ht

/-- A number starts with its sign or with a digit. -/
theorem head_of_number? {c : Char} {t : NumberText}
    (h : number? (c :: cs) = some (t, after)) : c = '-' ∨ (digitValue? c).isSome = true := by
  by_cases hminus : c = '-'
  · exact .inl hminus
  · rw [number?_of_ne hminus] at h
    cases hdigit : digitValue? c with
    | some digit => exact .inr rfl
    | none =>
      have hzero : c ≠ '0' := by
        rintro rfl
        cases hdigit
      have hwhole : whole? (c :: cs) = none := by
        rw [whole?_of_ne hzero, digits?, spanDigits, hdigit]
      rw [unsignedNumber?, hwhole] at h
      cases h

/-- Where a number can be read, it is the next token. -/
theorem next?_of_number? {t : NumberText} (h : number? cs = some (t, after)) :
    next? cs = some (.number t.value?, after) := by
  cases cs with
  | nil => cases h
  | cons c cs =>
    have hhead := head_of_number? h
    unfold next?
    split
    case h_11 => simp [h]
    all_goals
      rename_i heq
      obtain ⟨rfl, -⟩ := List.cons_eq_cons.mp heq
      exact absurd hhead (by decide)

/-- The value of a character that is a digit. -/
def digitOf (c : Char) : Nat :=
  c.toNat - '0'.toNat

theorem digitValue?_of_isDigit {c : Char} (h : c.isDigit = true) :
    digitValue? c = some (digitOf c) := by
  have hrange : '0' ≤ c ∧ c ≤ '9' := by
    simpa [Char.isDigit, Char.le_def] using h
  simp [digitValue?, digitOf, hrange]

theorem spanDigits_of_isDigit (h : ∀ c ∈ cs, c.isDigit = true) :
    spanDigits cs = (cs.map digitOf, []) := by
  induction cs with
  | nil => rfl
  | cons c cs ih =>
    rw [spanDigits, digitValue?_of_isDigit (h c List.mem_cons_self),
      ih fun d hd => h d (List.mem_cons_of_mem c hd)]
    rfl

theorem isDigit_of_mem_decimalDigits {n : Nat} {c : Char} (h : c ∈ decimalDigits n) :
    c.isDigit = true :=
  Nat.isDigit_of_mem_toDigits (by decide) (by decide) h

/-- The digits of a positive number do not start with a zero. -/
theorem exists_decimalDigits_eq_cons {n : Nat} (h : 0 < n) :
    ∃ c cs, decimalDigits n = c :: cs ∧ c ≠ '0' := by
  induction n using Nat.strongRecOn with
  | ind n ih =>
    by_cases hsmall : n < 10
    · refine ⟨n.digitChar, [], Nat.toDigits_of_lt_base hsmall, fun hzero => ?_⟩
      have := Nat.digitChar_eq_zero.mp hzero
      omega
    · obtain ⟨c, cs, hcs, hc⟩ := ih (n / 10) (by omega) (by omega)
      refine ⟨c, cs ++ [(n % 10).digitChar], ?_, hc⟩
      rw [decimalDigits, Nat.toDigits_of_base_le (by decide) (by omega)]
      rw [decimalDigits] at hcs
      rw [hcs, List.cons_append]

theorem whole?_decimalDigits (n : Nat) :
    whole? (decimalDigits n) = some ((decimalDigits n).map digitOf, []) := by
  by_cases hzero : n = 0
  · rw [hzero]
    rfl
  · obtain ⟨c, cs, hcs, hc⟩ := exists_decimalDigits_eq_cons (Nat.pos_of_ne_zero hzero)
    have hspan := spanDigits_of_isDigit fun d hd => isDigit_of_mem_decimalDigits (n := n) hd
    rw [hcs, whole?_of_ne hc, digits?, ← hcs, hspan, hcs]
    rfl

theorem le_ofDigitChars (cs : List Char) (init : Nat) : init ≤ Nat.ofDigitChars 10 cs init := by
  rw [Nat.ofDigitChars_eq_ofDigitChars_zero]
  exact Nat.le_trans (Nat.le_mul_of_pos_left init (Nat.pow_pos (by decide))) (Nat.le_add_right _ _)

/-- Digits that fit in 64 bits are all taken. -/
theorem leadingDigits_map_digitOf {init : Nat}
    (h : Nat.ofDigitChars 10 cs init ≤ maxSignificand) :
    leadingDigits init (cs.map digitOf) = (Nat.ofDigitChars 10 cs init, []) := by
  induction cs generalizing init with
  | nil => rfl
  | cons c cs ih =>
    have hstep : init * 10 + digitOf c = 10 * init + (c.toNat - '0'.toNat) := by
      rw [Nat.mul_comm]
      rfl
    rw [Nat.ofDigitChars_cons] at h ⊢
    have hfits : init * 10 + digitOf c ≤ maxSignificand := by
      rw [hstep]
      exact Nat.le_trans (le_ofDigitChars cs _) h
    rw [List.map_cons, leadingDigits, if_pos hfits, hstep]
    exact ih h

theorem leadingDigits_decimalDigits {n : Nat} (h : n ≤ maxSignificand) :
    leadingDigits 0 ((decimalDigits n).map digitOf) = (n, []) := by
  have hvalue : Nat.ofDigitChars 10 (decimalDigits n) 0 = n := Nat.ofDigitChars_ten_toDigits
  rw [leadingDigits_map_digitOf (by rwa [hvalue]), hvalue]

theorem unsignedNumber?_decimalDigits (negative : Bool) (n : Nat) :
    unsignedNumber? negative (decimalDigits n) =
      some (⟨negative, (decimalDigits n).map digitOf, none, none⟩, []) := by
  rw [unsignedNumber?, whole?_decimalDigits]
  rfl

/-- A number without a sign. -/
theorem number?_decimalDigits (n : Nat) :
    number? (decimalDigits n) =
      some (⟨false, (decimalDigits n).map digitOf, none, none⟩, []) := by
  have hunsigned := unsignedNumber?_decimalDigits false n
  obtain ⟨c, cs, hcs⟩ := List.exists_cons_of_ne_nil (Nat.toDigits_ne_nil (n := n) (b := 10))
  have hdigit : c.isDigit = true := by
    refine isDigit_of_mem_decimalDigits (n := n) ?_
    rw [decimalDigits, hcs]
    exact List.mem_cons_self
  have hminus : c ≠ '-' := by
    rintro rfl
    cases hdigit
  rw [decimalDigits, hcs] at hunsigned ⊢
  rw [number?_of_ne hminus, hunsigned]

/-- An integer. -/
theorem number?_intText (i : Int) :
    number? (intText i) =
      some (⟨i < 0, (decimalDigits i.natAbs).map digitOf, none, none⟩, []) := by
  rw [intText]
  by_cases hsign : i < 0
  · rw [if_pos hsign, decide_eq_true hsign]
    exact unsignedNumber?_decimalDigits true i.natAbs
  · rw [if_neg hsign, decide_eq_false hsign]
    exact number?_decimalDigits i.natAbs

end Numbers

end Token

/-- The written form of a number denotes the number. -/
def Number.ReadsBack (n : Number) : Prop :=
  ∃ t, Token.number? n.text = some (t, []) ∧ t.value? = some n

/-- The integers of 64 bits, signed or unsigned, read back. -/
theorem Number.readsBack_int {i : Int} (hlow : minInt64 ≤ i) (hhigh : i ≤ maxUInt64) :
    (Number.int i).ReadsBack := by
  have hfits : i.natAbs ≤ maxSignificand := by
    have hmin : minInt64 = -9223372036854775808 := rfl
    have hmax : maxUInt64 = 18446744073709551615 := rfl
    have hsignificand : maxSignificand = 18446744073709551615 := rfl
    omega
  refine ⟨_, Token.number?_intText i, ?_⟩
  have hread := Token.leadingDigits_decimalDigits hfits
  have hsigned : signedInt? (i < 0) i.natAbs = some i := by
    unfold signedInt?
    by_cases hsign : i < 0
    · have hmagnitude : 0 < i.natAbs ∧ i.natAbs ≤ Nat.pow 2 63 := by
        have hmin : minInt64 = -9223372036854775808 := rfl
        have hpow : Nat.pow 2 63 = 9223372036854775808 := rfl
        omega
      have habs : -(i.natAbs : Int) = i := by omega
      simp only [hsign, hmagnitude, habs, decide_true, Bool.not_true, Bool.false_eq_true,
        if_false, Bool.and_self, if_true]
    · have habs : (i.natAbs : Int) = i := by omega
      simp only [hsign, habs, decide_false, Bool.not_false, if_true]
  simp only [NumberText.value?, hread, List.isEmpty_nil, if_true, hsigned]

namespace Json

mutual

/-- All numbers of a document read back. -/
def Legible : Json → Prop
  | .number n => n.ReadsBack
  | .array items => AllLegible items
  | .object fields => FieldsLegible fields
  | _ => True

def AllLegible : List Json → Prop
  | [] => True
  | item :: rest => item.Legible ∧ AllLegible rest

def FieldsLegible : List (String × Json) → Prop
  | [] => True
  | (_, value) :: rest => value.Legible ∧ FieldsLegible rest

end

mutual

/-- The tokens of a document. -/
def tokens : Json → List Token
  | .null => [.null]
  | .bool b => [.bool b]
  | .number n => [.number (some n)]
  | .text s => [.string (some s)]
  | .array items => .openArray :: (itemTokens items ++ [.closeArray])
  | .object fields => .openObject :: (fieldTokens fields ++ [.closeObject])

def itemTokens : List Json → List Token
  | [] => []
  | [item] => item.tokens
  | item :: rest => item.tokens ++ .comma :: itemTokens rest

def fieldTokens : List (String × Json) → List Token
  | [] => []
  | [(key, value)] => .string (some key) :: .colon :: value.tokens
  | (key, value) :: rest =>
    .string (some key) :: .colon :: (value.tokens ++ .comma :: fieldTokens rest)

end

end Json

namespace Token

/-- A text without gaps that splits into tokens. -/
inductive Lexes : List Char → List Token → Prop
  | nil : Lexes [] []
  | cons {c : Char} {text after : List Char} {token : Token} {tokens : List Token}
      (hgap : isGap c = false) (hnext : next? (c :: text ++ after) = some (token, after))
      (rest : Lexes after tokens) : Lexes (c :: text ++ after) (token :: tokens)

theorem Lexes.scanWithin_eq {cs : List Char} {tokens : List Token} (h : Lexes cs tokens)
    {fuel : Nat} (hfuel : cs.length < fuel) : scanWithin fuel cs = (tokens, []) := by
  induction h generalizing fuel with
  | nil =>
    obtain ⟨fuel, rfl⟩ := Nat.exists_eq_add_one_of_ne_zero (Nat.ne_of_gt hfuel)
    rfl
  | @cons c text after token tokens hgap hnext rest ih =>
    obtain ⟨fuel, rfl⟩ := Nat.exists_eq_add_one_of_ne_zero (Nat.ne_of_gt (Nat.zero_lt_of_lt hfuel))
    have hshorter : after.length < fuel := by
      simp only [List.cons_append, List.length_cons, List.length_append] at hfuel
      omega
    rw [List.cons_append] at hnext ⊢
    rw [scanWithin, List.dropWhile_cons_of_neg (by simp [hgap])]
    simp only [hnext, ih hshorter]

/-- A token of one character. -/
theorem Lexes.single {c : Char} {after : List Char} {token : Token} {tokens : List Token}
    (hgap : isGap c = false) (hnext : next? (c :: after) = some (token, after))
    (rest : Lexes after tokens) : Lexes (c :: after) (token :: tokens) :=
  @Lexes.cons c [] after token tokens hgap hnext rest

theorem isGap_of_digitValue? {c : Char} (h : (digitValue? c).isSome = true) :
    isGap c = false := by
  cases hgap : isGap c with
  | false => rfl
  | true =>
    simp only [isGap, Bool.or_eq_true, decide_eq_true_eq] at hgap
    rcases hgap with ((rfl | rfl) | rfl) | rfl <;> cases h

theorem Lexes.quote (s : String) {after : List Char} {tokens : List Token}
    (rest : Lexes after tokens) : Lexes (Json.quote s ++ after) (.string (some s) :: tokens) :=
  .cons (by decide) (next?_quote s after) rest

theorem Lexes.number {n : Number} (h : n.ReadsBack) {after : List Char} {tokens : List Token}
    (hafter : EndsNumber after) (rest : Lexes after tokens) :
    Lexes (n.text ++ after) (.number (some n) :: tokens) := by
  obtain ⟨t, ht, hvalue⟩ := h
  have hnext := next?_of_number? (number?_append hafter ht)
  rw [hvalue] at hnext
  cases htext : n.text with
  | nil =>
    rw [htext] at ht
    cases ht
  | cons c text =>
    rw [htext] at ht hnext
    refine .cons ?_ hnext rest
    -- neither a sign nor a digit is a gap
    rcases head_of_number? ht with rfl | hdigit
    · decide
    · exact isGap_of_digitValue? hdigit

theorem endsNumber_cons {c : Char} {rest : List Char}
    (h : digitValue? c = none ∧ c ≠ '.' ∧ c ≠ 'e' ∧ c ≠ 'E') : EndsNumber (c :: rest) := by
  intro d hd
  cases hd
  exact h

mutual

/-- The text of a document, before a text that does not go on with a number. -/
theorem lexes_render (j : Json) (h : j.Legible) {after : List Char} {tokens : List Token}
    (hafter : EndsNumber after) (rest : Lexes after tokens) :
    Lexes (j.render ++ after) (j.tokens ++ tokens) := by
  cases j with
  | null =>
    rw [Json.render, Json.tokens]
    exact .cons (by decide) rfl rest
  | bool b =>
    cases b <;>
    · rw [Json.render, Json.tokens]
      exact .cons (by decide) rfl rest
  | number n =>
    rw [Json.render, Json.tokens]
    rw [Json.Legible] at h
    exact .number h hafter rest
  | text s =>
    rw [Json.render, Json.tokens]
    exact .quote s rest
  | array items =>
    rw [Json.Legible] at h
    rw [Json.render, Json.tokens]
    simp only [List.cons_append, List.append_assoc, List.nil_append]
    exact .single (by decide) rfl
      (lexes_renderItems items h (endsNumber_cons (by decide)) (.single (by decide) rfl rest))
  | object fields =>
    rw [Json.Legible] at h
    rw [Json.render, Json.tokens]
    simp only [List.cons_append, List.append_assoc, List.nil_append]
    exact .single (by decide) rfl
      (lexes_renderFields fields h (endsNumber_cons (by decide)) (.single (by decide) rfl rest))

theorem lexes_renderItems (items : List Json) (h : Json.AllLegible items) {after : List Char}
    {tokens : List Token} (hafter : EndsNumber after) (rest : Lexes after tokens) :
    Lexes (Json.renderItems items ++ after) (Json.itemTokens items ++ tokens) := by
  match items with
  | [] => exact rest
  | [item] =>
    rw [Json.AllLegible] at h
    rw [Json.renderItems, Json.itemTokens]
    exact lexes_render item h.1 hafter rest
  | item :: second :: others =>
    rw [Json.AllLegible] at h
    simp only [Json.renderItems, Json.itemTokens, List.cons_append, List.append_assoc]
    exact lexes_render item h.1 (endsNumber_cons (by decide))
      (.single (by decide) rfl (lexes_renderItems (second :: others) h.2 hafter rest))

theorem lexes_renderFields (fields : List (String × Json)) (h : Json.FieldsLegible fields)
    {after : List Char} {tokens : List Token} (hafter : EndsNumber after)
    (rest : Lexes after tokens) :
    Lexes (Json.renderFields fields ++ after) (Json.fieldTokens fields ++ tokens) := by
  match fields with
  | [] => exact rest
  | [(key, value)] =>
    rw [Json.FieldsLegible] at h
    rw [Json.renderFields, Json.fieldTokens]
    simp only [List.cons_append, List.append_assoc]
    exact .quote key (.single (by decide) rfl (lexes_render value h.1 hafter rest))
  | (key, value) :: second :: others =>
    rw [Json.FieldsLegible] at h
    simp only [Json.renderFields, Json.fieldTokens, List.cons_append, List.append_assoc]
    exact .quote key (.single (by decide) rfl (lexes_render value h.1 (endsNumber_cons (by decide))
      (.single (by decide) rfl (lexes_renderFields (second :: others) h.2 hafter rest))))

end

/-- The text of a document splits into its tokens. -/
theorem scan_render {j : Json} (h : j.Legible) : scan j.render = (j.tokens, []) := by
  have hlexes : Lexes (j.render ++ []) (j.tokens ++ []) :=
    lexes_render j h (fun c hc => by cases hc) .nil
  rw [List.append_nil, List.append_nil] at hlexes
  exact hlexes.scanWithin_eq (Nat.lt_succ_self _)

end Token

end Criteria
