import Criteria.Proofs.Text.Patterns
import Criteria.Text.Regex

/-!
# What the regular expression of a pattern finds

A regular expression is found in a text if one of its matches starts at some place of the text. The
expression of a pattern is anchored at both ends, so it is found exactly where the pattern fits.
This holds with every engine that finds what its documentation says.

## Main definitions

- `MatchesAt`: a match of steps starts at a place of a text
- `Finds`: a match of steps starts at some place
- `RegexEngine.Documented`: the engine finds the matches of the expressions that it compiles

## Main statements

- `isFound_iff_finds`: looking along the rows finds the matches
- `readRegex?_likeRegex`: the steps of the expression of a pattern
- `finds_likeSteps_iff`: these steps are found in the texts that fit the pattern
- `RegexEngine.Documented.test_eq`: what an engine says about a pattern
-/

namespace Criteria.Text

/-- A match of steps starts at the place of a text from which on `rest` is left. -/
def MatchesAt (text : List Char) : List RegexStep → List Char → Prop
  | [], _ => True
  | .start :: steps, rest => rest = text ∧ MatchesAt text steps rest
  | .stop :: steps, rest => rest = [] ∧ MatchesAt text steps rest
  | .piece part :: steps, rest => part.Precedes (MatchesAt text steps) rest

/-- A match of steps starts at some place of a text. -/
def Finds (steps : List RegexStep) (text : List Char) : Prop :=
  ∃ rest, rest <:+ text ∧ MatchesAt text steps rest

section Rows

variable {P Q : List Char → Prop} {text : List Char} {row row' : List Bool}

theorem isRow_replicate (text : List Char) :
    IsRow (fun _ => True) text (List.replicate (text.length + 1) true) := by
  induction text with
  | nil => exact isRow_nil_iff.mpr ⟨true, rfl, by simp⟩
  | cons c rest ih => exact isRow_cons_iff.mpr ⟨true, _, rfl, by simp, ih⟩

theorem isRow_zipWith_and (h : IsRow P text row) (h' : IsRow Q text row') :
    IsRow (fun suffix => P suffix ∧ Q suffix) text (List.zipWith (· && ·) row row') := by
  induction text generalizing row row' with
  | nil =>
    obtain ⟨b, rfl, hb⟩ := isRow_nil_iff.mp h
    obtain ⟨b', rfl, hb'⟩ := isRow_nil_iff.mp h'
    exact isRow_nil_iff.mpr ⟨b && b', rfl, by rw [Bool.and_eq_true, hb, hb']⟩
  | cons c rest ih =>
    obtain ⟨b, others, rfl, hb, hothers⟩ := isRow_cons_iff.mp h
    obtain ⟨b', others', rfl, hb', hothers'⟩ := isRow_cons_iff.mp h'
    exact isRow_cons_iff.mpr
      ⟨b && b', _, rfl, by rw [Bool.and_eq_true, hb, hb'], ih hothers hothers'⟩

theorem isRow_map_false (h : IsRow P text row) (hQ : ∀ suffix, suffix <:+ text → ¬ Q suffix) :
    IsRow Q text (row.map fun _ => false) := by
  induction text generalizing row with
  | nil =>
    obtain ⟨b, rfl, -⟩ := isRow_nil_iff.mp h
    exact isRow_nil_iff.mpr ⟨false, rfl, by simpa using hQ [] List.suffix_rfl⟩
  | cons c rest ih =>
    obtain ⟨b, others, rfl, -, hothers⟩ := isRow_cons_iff.mp h
    refine isRow_cons_iff.mpr ⟨false, _, rfl, by simpa using hQ _ List.suffix_rfl, ?_⟩
    exact ih hothers fun suffix hsuffix => hQ suffix (hsuffix.trans (List.suffix_cons c rest))

/-- The first value of a row is about the whole text, and no other is. -/
theorem isRow_firstOnly (h : IsRow P text row) :
    IsRow (fun suffix => suffix = text ∧ P suffix) text (firstOnly row) := by
  cases text with
  | nil =>
    obtain ⟨b, rfl, hb⟩ := isRow_nil_iff.mp h
    exact isRow_nil_iff.mpr ⟨b, rfl, by simpa using hb⟩
  | cons c rest =>
    obtain ⟨b, others, rfl, hb, hothers⟩ := isRow_cons_iff.mp h
    refine isRow_cons_iff.mpr ⟨b, _, rfl, by simpa using hb, isRow_map_false hothers ?_⟩
    rintro suffix hsuffix ⟨rfl, -⟩
    have hlength := hsuffix.length_le
    rw [List.length_cons] at hlength
    omega

/-- One of the values of a row is true if a suffix of the text has the property. -/
theorem IsRow.any_iff (h : IsRow P text row) :
    row.any id = true ↔ ∃ suffix, suffix <:+ text ∧ P suffix := by
  induction text generalizing row with
  | nil =>
    obtain ⟨b, rfl, hb⟩ := isRow_nil_iff.mp h
    simpa using hb
  | cons c rest ih =>
    obtain ⟨b, others, rfl, hb, hothers⟩ := isRow_cons_iff.mp h
    rw [List.any_cons, Bool.or_eq_true, ih hothers, id, hb]
    simp only [List.suffix_cons_iff, or_and_right, exists_or, exists_eq_left]

theorem isRow_matchesAlong (text : List Char) (steps : List RegexStep) :
    IsRow (MatchesAt text steps) text (matchesAlong text steps) := by
  induction steps with
  | nil => exact isRow_replicate text
  | cons step rest ih =>
    cases step with
    | start => exact isRow_firstOnly ih
    | stop => exact isRow_zipWith_and (isRow_emptyRow text) ih
    | piece part => exact isRow_extendRow part ih

/-- Looking along the rows finds the matches. -/
theorem isFound_iff_finds (steps : List RegexStep) (text : String) :
    isFound steps text = true ↔ Finds steps text.toList :=
  (isRow_matchesAlong text.toList steps).any_iff

end Rows

section Translation

/-- The steps of the regular expression of a pattern. -/
def likeSteps (pattern : List Char) : List RegexStep :=
  .start :: ((patternParts pattern).map .piece ++ [.stop])

/-- A character that is escaped is read as itself. -/
theorem readSteps?_escapeRegex_append (c : Char) (rest : List Char) :
    readSteps? (escapeRegex c ++ rest) = (readSteps? rest).map (.piece (.one c) :: ·) := by
  by_cases hmeta : c ∈ regexMetas
  · rw [escapeRegex, if_pos hmeta]
    show readSteps? ('\\' :: c :: rest) = _
    rw [readSteps?, if_pos hmeta]
  · rw [escapeRegex, if_neg hmeta]
    show readSteps? (c :: rest) = _
    have hne (d : Char) (hd : d ∈ regexMetas) : c ≠ d := by
      rintro rfl
      exact hmeta hd
    have hstart := hne '^' (by decide)
    have hstop := hne '$' (by decide)
    have hdot := hne '.' (by decide)
    have hescape := hne '\\' (by decide)
    rw [readSteps?.eq_def]
    split <;> simp_all

/-- A character of a pattern is read as its part. What follows must not repeat it. -/
theorem readSteps?_likeRegexChar_append (c : Char) {rest : List Char}
    (h : rest.head? ≠ some '*') :
    readSteps? (likeRegexChar c ++ rest) = (readSteps? rest).map (.piece (.ofChar c) :: ·) := by
  unfold likeRegexChar PatternPart.ofChar
  split
  · show readSteps? ('.' :: '*' :: rest) = _
    rw [readSteps?]
  · split
    · show readSteps? ('.' :: rest) = _
      rw [readSteps?]
      rintro after rfl
      exact h rfl
    · exact readSteps?_escapeRegex_append c rest

/-- No regular expression of a pattern goes on with a repetition. -/
theorem head?_flatMap_likeRegexChar_ne (pattern : List Char) :
    (pattern.flatMap likeRegexChar ++ ['$']).head? ≠ some '*' := by
  cases pattern with
  | nil => decide
  | cons c rest =>
    rw [List.flatMap_cons, List.append_assoc]
    unfold likeRegexChar escapeRegex
    split
    · simp
    · split
      · simp
      · split
        · simp
        · rename_i hmeta
          rintro heq
          obtain rfl : c = '*' := by simpa using heq
          exact hmeta (by decide)

theorem readSteps?_flatMap_likeRegexChar (pattern : List Char) :
    readSteps? (pattern.flatMap likeRegexChar ++ ['$']) =
      some ((patternParts pattern).map .piece ++ [.stop]) := by
  induction pattern with
  | nil => rfl
  | cons c rest ih =>
    rw [List.flatMap_cons, List.append_assoc,
      readSteps?_likeRegexChar_append c (head?_flatMap_likeRegexChar_ne rest), ih]
    rfl

theorem readRegex?_likeRegex (pattern : String) :
    readRegex? (likeRegex pattern).toList = some (likeSteps pattern.toList) := by
  rw [likeRegex, String.toList_ofList, likeRegexChars, readRegex?, readSteps?,
    readSteps?_flatMap_likeRegexChar]
  rfl

theorem matchesAt_map_piece_iff (text : List Char) {rest : List Char} {parts : List PatternPart} :
    MatchesAt text (parts.map .piece ++ [.stop]) rest ↔ Fits parts rest := by
  induction parts generalizing rest with
  | nil =>
    show rest = [] ∧ True ↔ _
    rw [and_true, fits_nil_iff]
  | cons part parts ih =>
    have hrest : MatchesAt text (parts.map .piece ++ [.stop]) = Fits parts :=
      funext fun _ => propext ih
    show part.Precedes (MatchesAt text (parts.map .piece ++ [.stop])) rest ↔ _
    rw [hrest, fits_cons_iff]

/-- The regular expression of a pattern is found in the texts that fit the pattern. -/
theorem finds_likeSteps_iff {pattern text : List Char} :
    Finds (likeSteps pattern) text ↔ Fits (patternParts pattern) text := by
  rw [← matchesAt_map_piece_iff text]
  constructor
  · rintro ⟨rest, -, rfl, hrest⟩
    exact hrest
  · intro h
    exact ⟨text, List.suffix_rfl, rfl, h⟩

end Translation

namespace RegexEngine

/-- The engine finds the matches of an expression that it compiles, as far as the syntax is
described. It may refuse an expression. -/
def Documented (engine : RegexEngine) : Prop :=
  ∀ source steps test, readRegex? source.toList = some steps → engine.compile source = .ok test →
    ∀ text, test text = true ↔ Finds steps text.toList

theorem standard_compile_of_read {source : String} {steps : List RegexStep}
    (h : readRegex? source.toList = some steps) :
    standard.compile source = .ok (isFound steps) := by
  simp only [standard, h]

theorem standard_documented : standard.Documented := by
  intro source steps test hread hcompile text
  rw [standard_compile_of_read hread] at hcompile
  obtain rfl := Except.ok.inj hcompile
  exact isFound_iff_finds steps text

/-- An engine that does not refuse a pattern tests texts against it as the pattern says. -/
theorem Documented.test_eq {engine : RegexEngine} (h : engine.Documented) {pattern : String}
    {test : String → Bool} (hcompile : engine.compile (likeRegex pattern) = .ok test)
    (text : String) : test text = isLike text pattern := by
  rw [Bool.eq_iff_iff, h _ _ test (readRegex?_likeRegex pattern) hcompile text,
    finds_likeSteps_iff, isLike, isLikeChars_iff_fits]

end RegexEngine

end Criteria.Text
