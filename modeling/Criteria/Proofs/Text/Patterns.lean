import Mathlib.Data.List.Forall2
import Mathlib.Data.List.Infix
import Criteria.Text.Like

/-!
# What a pattern means

A text fits a pattern if it can be cut into consecutive pieces, one for each character of the
pattern: any piece for `%`, one character for `_`, and otherwise the character itself. The rows
of truth values that are kept for the suffixes of a text say whether the suffixes fit. A value
without wildcards, with runs at its ends or without, asks for a place where it stands in the text.

## Main definitions

- `PatternPart.Covers`: the pieces that a part of a pattern stands for
- `Fits`: a text can be cut into pieces for the parts
- `PatternPart.Precedes`: a piece for a part comes before a rest with a property
- `IsRow`: a row of truth values says which suffixes of a text have a property
- `framed`: a value with runs at its ends, or without
- `Occurs`: the places of a value in a text

## Main statements

- `isLikeChars_iff_fits`: the meaning of a pattern
- `isLikeChars_framed_iff`: the meaning of a value without wildcards
-/

namespace Criteria.Text

/-- The pieces of a text that a part of a pattern stands for. -/
def PatternPart.Covers : PatternPart → List Char → Prop
  | .anyRun, _ => True
  | .anyOne, piece => ∃ c, piece = [c]
  | .one c, piece => piece = [c]

/-- A text can be cut into one piece for each part. -/
def Fits (parts : List PatternPart) (text : List Char) : Prop :=
  ∃ pieces, List.Forall₂ PatternPart.Covers parts pieces ∧ pieces.flatten = text

/-- A text can be cut into a piece for a part and a rest with a property. -/
def PatternPart.Precedes (part : PatternPart) (P : List Char → Prop) (text : List Char) : Prop :=
  ∃ piece rest, piece ++ rest = text ∧ part.Covers piece ∧ P rest

section Fits

variable {parts : List PatternPart} {P : List Char → Prop} {text : List Char}

theorem fits_nil_iff : Fits [] text ↔ text = [] := by
  constructor
  · rintro ⟨pieces, hcovers, rfl⟩
    rw [List.forall₂_nil_left_iff.mp hcovers, List.flatten_nil]
  · rintro rfl
    exact ⟨[], .nil, rfl⟩

theorem fits_cons_iff {part : PatternPart} :
    Fits (part :: parts) text ↔ part.Precedes (Fits parts) text := by
  constructor
  · rintro ⟨pieces, hcovers, rfl⟩
    obtain ⟨piece, others, hpiece, hothers, rfl⟩ := List.forall₂_cons_left_iff.mp hcovers
    exact ⟨piece, others.flatten, rfl, hpiece, others, hothers, rfl⟩
  · rintro ⟨piece, rest, rfl, hpiece, pieces, hcovers, rfl⟩
    exact ⟨piece :: pieces, .cons hpiece hcovers, rfl⟩

theorem one_precedes_iff {c : Char} :
    (PatternPart.one c).Precedes P text ↔ ∃ rest, c :: rest = text ∧ P rest := by
  constructor
  · rintro ⟨piece, rest, rfl, rfl, hrest⟩
    exact ⟨rest, rfl, hrest⟩
  · rintro ⟨rest, rfl, hrest⟩
    exact ⟨[c], rest, rfl, rfl, hrest⟩

theorem anyOne_precedes_iff :
    PatternPart.anyOne.Precedes P text ↔ ∃ c rest, c :: rest = text ∧ P rest := by
  constructor
  · rintro ⟨piece, rest, rfl, ⟨c, rfl⟩, hrest⟩
    exact ⟨c, rest, rfl, hrest⟩
  · rintro ⟨c, rest, rfl, hrest⟩
    exact ⟨[c], rest, rfl, ⟨c, rfl⟩, hrest⟩

/-- After any run some suffix has the property. -/
theorem anyRun_precedes_iff :
    PatternPart.anyRun.Precedes P text ↔ ∃ rest, rest <:+ text ∧ P rest := by
  constructor
  · rintro ⟨piece, rest, rfl, -, hrest⟩
    exact ⟨rest, List.suffix_append piece rest, hrest⟩
  · rintro ⟨rest, ⟨piece, rfl⟩, hrest⟩
    exact ⟨piece, rest, rfl, trivial, hrest⟩

/-- A run is empty, or it starts with the first character. -/
theorem anyRun_precedes_cons_iff {c : Char} : PatternPart.anyRun.Precedes P (c :: text) ↔
    P (c :: text) ∨ PatternPart.anyRun.Precedes P text := by
  simp only [anyRun_precedes_iff, List.suffix_cons_iff]
  constructor
  · rintro ⟨rest, rfl | hrest, hP⟩
    · exact .inl hP
    · exact .inr ⟨rest, hrest, hP⟩
  · rintro (hP | ⟨rest, hrest, hP⟩)
    · exact ⟨_, .inl rfl, hP⟩
    · exact ⟨rest, .inr hrest, hP⟩

end Fits

section Rows

variable {parts : List PatternPart} {P : List Char → Prop} {text : List Char} {row : List Bool}

/-- A row says for each suffix of a text, the longest first, whether it has a property. -/
def IsRow (P : List Char → Prop) (text : List Char) (row : List Bool) : Prop :=
  List.Forall₂ (fun b suffix => b = true ↔ P suffix) row text.tails

theorem isRow_nil_iff : IsRow P [] row ↔ ∃ b, row = [b] ∧ (b = true ↔ P []) := by
  rw [IsRow, List.tails, List.forall₂_cons_right_iff]
  constructor
  · rintro ⟨b, rest, hb, hrest, rfl⟩
    rw [List.forall₂_nil_right_iff.mp hrest]
    exact ⟨b, rfl, hb⟩
  · rintro ⟨b, rfl, hb⟩
    exact ⟨b, [], hb, .nil, rfl⟩

theorem isRow_cons_iff {c : Char} : IsRow P (c :: text) row ↔
    ∃ b rest, row = b :: rest ∧ (b = true ↔ P (c :: text)) ∧ IsRow P text rest := by
  rw [IsRow, List.tails_cons, List.forall₂_cons_right_iff]
  constructor
  · rintro ⟨b, rest, hb, hrest, rfl⟩
    exact ⟨b, rest, rfl, hb, hrest⟩
  · rintro ⟨b, rest, rfl, hb, hrest⟩
    exact ⟨b, rest, hb, hrest, rfl⟩

/-- The first value of a row is about the whole text. -/
theorem IsRow.headD_iff (h : IsRow P text row) : row.headD false = true ↔ P text := by
  cases text with
  | nil =>
    obtain ⟨b, rfl, hb⟩ := isRow_nil_iff.mp h
    exact hb
  | cons c rest =>
    obtain ⟨b, row, rfl, hb, -⟩ := isRow_cons_iff.mp h
    exact hb

theorem isRow_emptyRow (text : List Char) : IsRow (· = []) text (emptyRow text) := by
  induction text with
  | nil =>
    rw [isRow_nil_iff]
    exact ⟨true, rfl, by simp⟩
  | cons c rest ih =>
    rw [isRow_cons_iff]
    exact ⟨false, emptyRow rest, rfl, by simp, ih⟩

/-- The row for one more part in front. -/
theorem isRow_extendRow (part : PatternPart) (h : IsRow P text row) :
    IsRow (part.Precedes P) text (extendRow part text row) := by
  induction text generalizing row with
  | nil =>
    obtain ⟨b, rfl, hb⟩ := isRow_nil_iff.mp h
    rw [isRow_nil_iff]
    refine ⟨_, rfl, ?_⟩
    cases part with
    | anyRun => simpa [anyRun_precedes_iff] using hb
    | anyOne => simp [anyOne_precedes_iff]
    | one d => simp [one_precedes_iff]
  | cons c rest ih =>
    obtain ⟨b, others, rfl, hb, hothers⟩ := isRow_cons_iff.mp h
    -- the values for the shorter suffixes come from the induction, and only the first is new
    have hfollowing := ih hothers
    rw [isRow_cons_iff]
    refine ⟨_, _, rfl, ?_, hfollowing⟩
    cases part with
    | anyRun =>
      -- the old row knows the empty run, the new row the runs that start here
      show (b || _) = true ↔ _
      rw [Bool.or_eq_true, hb, anyRun_precedes_cons_iff, ← hfollowing.headD_iff]
      rfl
    | anyOne =>
      show others.headD false = true ↔ _
      rw [hothers.headD_iff, anyOne_precedes_iff]
      constructor
      · intro hrest
        exact ⟨c, rest, rfl, hrest⟩
      · rintro ⟨d, rest', hcut, hrest⟩
        obtain ⟨rfl, rfl⟩ := List.cons.inj hcut
        exact hrest
    | one d =>
      show (c == d && others.headD false) = true ↔ _
      rw [Bool.and_eq_true, hothers.headD_iff, beq_iff_eq, one_precedes_iff]
      constructor
      · rintro ⟨rfl, hrest⟩
        exact ⟨rest, rfl, hrest⟩
      · rintro ⟨rest', hcut, hrest⟩
        obtain ⟨rfl, rfl⟩ := List.cons.inj hcut
        exact ⟨rfl, hrest⟩

theorem isRow_matchesSuffixes (text : List Char) (parts : List PatternPart) :
    IsRow (Fits parts) text (matchesSuffixes text parts) := by
  induction parts with
  | nil =>
    have hnil : Fits [] = (· = []) := funext fun _ => propext fits_nil_iff
    rw [hnil]
    exact isRow_emptyRow text
  | cons part rest ih =>
    have hcons : Fits (part :: rest) = part.Precedes (Fits rest) :=
      funext fun _ => propext fits_cons_iff
    rw [hcons]
    exact isRow_extendRow part ih

/-- A text fits a pattern exactly if it can be cut into pieces for the parts of the pattern. -/
theorem isLikeChars_iff_fits (text pattern : List Char) :
    isLikeChars text pattern = true ↔ Fits (patternParts pattern) text :=
  (isRow_matchesSuffixes text (patternParts pattern)).headD_iff

instance (parts : List PatternPart) (text : List Char) : Decidable (Fits parts text) :=
  decidable_of_iff _ (isRow_matchesSuffixes text parts).headD_iff

end Rows

section Literals

variable {value text : List Char} {parts : List PatternPart}

/-- The characters are none of the wildcards. -/
def Literal (value : List Char) : Prop :=
  '%' ∉ value ∧ '_' ∉ value

/-- Every character of a pattern stands for itself at least. -/
theorem covers_ofChar (c : Char) : (PatternPart.ofChar c).Covers [c] := by
  unfold PatternPart.ofChar
  split
  · trivial
  · split
    · exact ⟨c, rfl⟩
    · rfl

theorem fits_append_of_fits {rest : List Char} (h : Fits parts rest) (value : List Char) :
    Fits (patternParts value ++ parts) (value ++ rest) := by
  induction value with
  | nil => exact h
  | cons c value ih => exact fits_cons_iff.mpr ⟨[c], value ++ rest, rfl, covers_ofChar c, ih⟩

/-- Characters that are no wildcards stand for nothing but themselves. -/
theorem fits_append_iff (h : Literal value) : Fits (patternParts value ++ parts) text ↔
    ∃ rest, value ++ rest = text ∧ Fits parts rest := by
  constructor
  · intro hfits
    induction value generalizing text with
    | nil => exact ⟨text, rfl, hfits⟩
    | cons c value ih =>
      obtain ⟨hrun, hone⟩ := h
      rw [List.mem_cons, not_or] at hrun hone
      have hpart : PatternPart.ofChar c = .one c := by
        rw [PatternPart.ofChar, if_neg (Ne.symm hrun.1), if_neg (Ne.symm hone.1)]
      have hcons : patternParts (c :: value) = .one c :: patternParts value := by
        rw [patternParts, List.map_cons, hpart, ← patternParts]
      rw [hcons, List.cons_append, fits_cons_iff, one_precedes_iff] at hfits
      obtain ⟨following, rfl, hfollowing⟩ := hfits
      obtain ⟨rest, rfl, hrest⟩ := ih ⟨hrun.2, hone.2⟩ hfollowing
      exact ⟨rest, rfl, hrest⟩
  · rintro ⟨rest, rfl, hrest⟩
    exact fits_append_of_fits hrest value

/-- A run if there may be more text, and otherwise nothing. -/
def runIf (more : Bool) : List Char :=
  if more then ['%'] else []

theorem fits_runIf_append_iff {more : Bool} : Fits (patternParts (runIf more) ++ parts) text ↔
    ∃ piece rest, piece ++ rest = text ∧ (more = false → piece = []) ∧ Fits parts rest := by
  cases more with
  | true =>
    show Fits (.anyRun :: parts) text ↔ _
    rw [fits_cons_iff]
    simp [PatternPart.Precedes, PatternPart.Covers]
  | false =>
    show Fits parts text ↔ _
    simp

/-- The pattern of a text that may go on before a value and after it. -/
def framed (before after : Bool) (value : List Char) : List Char :=
  runIf before ++ value ++ runIf after

/-- A value stands in a text between two others, which are empty where the text may not go on. -/
structure Occurs (before after : Bool) (value text a b : List Char) : Prop where
  cut : a ++ value ++ b = text
  start : before = false → a = []
  stop : after = false → b = []

theorem patternParts_append (value value' : List Char) :
    patternParts (value ++ value') = patternParts value ++ patternParts value' :=
  List.map_append

theorem fits_runIf_iff {more : Bool} : Fits (patternParts (runIf more)) text ↔
    (more = false → text = []) := by
  rw [← List.append_nil (patternParts (runIf more)), fits_runIf_append_iff]
  simp [fits_nil_iff]

/-- A text fits the pattern of a value where the value stands in it, wildcards or not. -/
theorem isLikeChars_framed_of_occurs {before after : Bool} {a b : List Char}
    (h : Occurs before after value text a b) :
    isLikeChars text (framed before after value) = true := by
  rw [isLikeChars_iff_fits, framed, List.append_assoc, patternParts_append,
    fits_runIf_append_iff, patternParts_append]
  exact ⟨a, value ++ b, by rw [← List.append_assoc, h.cut], h.start,
    fits_append_of_fits (fits_runIf_iff.mpr h.stop) value⟩

/-- A text fits the pattern of a value without wildcards exactly if the value stands in it. -/
theorem isLikeChars_framed_iff {before after : Bool} (h : Literal value) :
    isLikeChars text (framed before after value) = true ↔
      ∃ a b, Occurs before after value text a b := by
  constructor
  · rw [isLikeChars_iff_fits, framed, List.append_assoc, patternParts_append,
      fits_runIf_append_iff, patternParts_append]
    rintro ⟨a, rest, rfl, hstart, hrest⟩
    obtain ⟨b, rfl, hstop⟩ := (fits_append_iff h).mp hrest
    exact ⟨a, b, List.append_assoc a value b, hstart, fits_runIf_iff.mp hstop⟩
  · rintro ⟨a, b, hoccurs⟩
    exact isLikeChars_framed_of_occurs hoccurs

theorem occurs_anywhere_iff : (∃ a b, Occurs true true value text a b) ↔ value <:+: text := by
  constructor
  · rintro ⟨a, b, hoccurs⟩
    exact ⟨a, b, hoccurs.cut⟩
  · rintro ⟨a, b, hcut⟩
    exact ⟨a, b, hcut, nofun, nofun⟩

theorem occurs_at_start_iff : (∃ a b, Occurs false true value text a b) ↔ value <+: text := by
  constructor
  · rintro ⟨a, b, hcut, hstart, -⟩
    obtain rfl := hstart rfl
    exact ⟨b, hcut⟩
  · rintro ⟨b, hcut⟩
    exact ⟨[], b, hcut, fun _ => rfl, nofun⟩

theorem occurs_at_end_iff : (∃ a b, Occurs true false value text a b) ↔ value <:+ text := by
  constructor
  · rintro ⟨a, b, hcut, -, hstop⟩
    obtain rfl := hstop rfl
    exact ⟨a, by rw [← hcut, List.append_nil]⟩
  · rintro ⟨a, hcut⟩
    exact ⟨a, [], by rw [List.append_nil, hcut], nofun, fun _ => rfl⟩

end Literals

end Criteria.Text
