import Criteria.Proofs.Criterion.Patterns
import Criteria.Proofs.Double.Addition
import Criteria.Proofs.Double.Layouts
import Criteria.Proofs.Value.Display

/-!
# Looking for a value in its own document

The operators that look for a value compare two texts: the one that the value has among values, in
the pattern, and the one that its document has. A boolean, an integer and a text have one text, and
so each of these operators finds such a value in its own document. A floating-point number has two
texts, and whether it is found depends on how they differ.

## Main definitions

- `textOperators`: the operators that look for a value in a text
- `Value.HasOneText`: values with the same text in both places
- `Double.size`: numbers without their signs
- `Double.IsWhole`, `Double.IsSplit`: numbers without a fraction, and numbers in the middle of two
  shortest decimals
- `Criterion.found`: what an operator finds

## Main statements

- `Double.text_of_whole`, `Double.text_of_fraction`, `Double.not_infix_text`: the two texts of a
  number
- `Criterion.finds_own_text`: which values are found in their own documents
-/

namespace Criteria

open Text (Literal Occurs)

/-- The operators that look for a value in a text. -/
def textOperators : List Operator :=
  [.like, .contains, .startsWith, .endsWith]

/-- Booleans, integers and texts without wildcards have one text. -/
def Value.HasOneText : Value → Prop
  | .bool _ | .int _ => True
  | .text s => Literal s.toList
  | _ => False

/-- No character of a number is a wildcard. -/
theorem literal_of_numeral {cs : List Char} (h : ∀ c ∈ cs, IsIntegerChar c ∨ c = '.') :
    Literal cs := by
  have hnone {c : Char} (hminus : c ≠ '-') (hdigit : c.isDigit = false) (hpoint : c ≠ '.') :
      c ∉ cs := by
    intro hmem
    simpa [IsIntegerChar, hminus, hdigit, hpoint] using h c hmem
  exact ⟨hnone (by decide) (by decide) (by decide), hnone (by decide) (by decide) (by decide)⟩

namespace Double

/-- How great a number is, without its sign. -/
def size : Double → ℚ
  | .nan => 0
  | .ranked _ rank => magnitude rank

/-- A number without a fraction. -/
def IsWhole : Double → Prop
  | .nan => False
  | .ranked _ rank => Criteria.IsWhole rank

/-- Two shortest decimals are equally near to a number: the even one is below it, and the next one
is above it. -/
def IsSplit : Double → Prop
  | .nan => False
  | .ranked _ rank => ∃ digits exponent, shortestOfRank .even rank = ⟨digits, exponent⟩ ∧
      shortestOfRank .up rank = ⟨digits + 1, exponent⟩ ∧
      magnitude rank - Decimal.value ⟨digits, exponent⟩ =
        Decimal.value ⟨digits + 1, exponent⟩ - magnitude rank

theorem exists_ranked {x : Double} (h : x.isFinite = true) :
    ∃ negative, ∃ rank : Fin (infinityRank + 1), rank.val < infinityRank ∧
      x = .ranked negative rank := by
  cases x with
  | nan => cases h
  | ranked negative rank => exact ⟨negative, rank, of_decide_eq_true h, rfl⟩

/-- The size of a number from its units. -/
theorem size_eq_div {x : Double} (units : Int) {num den : Nat} (h : x.units? = some units)
    (hden : 0 < den) (hratio : units.natAbs * den = num * 2 ^ unitExponent) :
    x.size = num / den := by
  obtain ⟨negative, rank, rfl, -, rfl⟩ := exists_ranked_of_units? h
  have hsize : (if negative then -(unitsOfRank rank : Int) else unitsOfRank rank).natAbs =
      unitsOfRank rank := by
    cases negative <;> simp
  rw [hsize] at hratio
  rw [size, magnitude, div_eq_div_iff two_pow_unitExponent_pos.ne'
    (Nat.cast_ne_zero.mpr hden.ne')]
  exact_mod_cast hratio

/-- A finite number is whole if its size is. -/
theorem isWhole_iff {x : Double} (h : x.isFinite = true) : x.IsWhole ↔ ∃ n : Nat, x.size = n := by
  obtain ⟨negative, rank, -, rfl⟩ := exists_ranked h
  exact Iff.rfl

theorem not_isWhole {x : Double} {num den : Nat} (hden : 0 < den) (h : x.size = num / den)
    (hrest : ¬ den ∣ num) : ¬ x.IsWhole := by
  cases x with
  | nan => exact id
  | ranked negative rank =>
    rintro ⟨n, hn⟩
    have hnum : (num : ℚ) = n * den :=
      (div_eq_iff (Nat.cast_ne_zero.mpr hden.ne')).mp (h.symm.trans hn)
    exact hrest ⟨n, by rw [mul_comm]; exact_mod_cast hnum⟩

theorem isSplit_iff (negative : Bool) {rank : Fin (infinityRank + 1)} (h : 0 < rank.val) :
    IsSplit (.ranked negative rank) ↔
      shortestOfRank .even rank ≠ shortestOfRank .up rank := by
  constructor
  · rintro ⟨digits, exponent, heven, hup, -⟩ heq
    rw [heven, hup] at heq
    exact absurd (congrArg Decimal.digits heq) (Nat.lt_succ_self digits).ne
  · intro hne
    obtain ⟨digits, exponent, heven, hup, -, -, hmiddle⟩ :=
      (shortestOfRank_tie h).resolve_left hne
    refine ⟨digits, exponent, heven, hup, ?_⟩
    have hsum : inHalves (Decimal.value ⟨digits, exponent⟩ + Decimal.value ⟨digits + 1, exponent⟩) =
        inHalves (2 * magnitude rank) := by
      have hmagnitude := inHalves_magnitude rank
      unfold inHalves at hmiddle hmagnitude ⊢
      rw [add_mul, hmiddle, mul_assoc, hmagnitude]
      ring
    have hcancel := mul_right_cancel₀ (by positivity) hsum
    linarith

/-- A text with no point in it is at its own end, before a point and a zero, only as a zero. -/
theorem suffix_append_point_iff {p : List Char} (hpoint : '.' ∉ p) (hne : p ≠ []) :
    p <:+ p ++ ['.', '0'] ↔ p = ['0'] := by
  constructor
  · intro h
    rcases Nat.lt_or_ge p.length 2 with hshort | hlong
    · have hend : p <:+ ['.', '0'] :=
        List.suffix_of_suffix_length_le h (List.suffix_append p _) (Nat.le_of_lt hshort)
      rcases List.suffix_cons_iff.mp hend with rfl | hend
      · simp at hpoint
      · exact (List.suffix_cons_iff.mp hend).resolve_right fun hnil =>
          hne (List.suffix_nil.mp hnil)
    · have hend : ['.', '0'] <:+ p :=
        List.suffix_of_suffix_length_le (List.suffix_append p _) h hlong
      exact absurd (hend.subset List.mem_cons_self) hpoint
  · rintro rfl
    exact ⟨['0', '.'], rfl⟩

section Texts

variable {x : Double}

/-- A finite number among values is written without wildcards. -/
theorem literal_write (h : x.isFinite = true) : Literal (x.write Value.numberLayout) := by
  obtain ⟨negative, rank, hrank, rfl⟩ := exists_ranked h
  rw [write_numberLayout negative hrank]
  refine literal_of_numeral fun c hmem => ?_
  rcases List.mem_append.mp hmem with hmem | hmem
  · cases negative with
    | false => cases hmem
    | true => exact .inl (.inl (List.mem_singleton.mp hmem))
  · exact (digit_or_point_of_mem_magnitudeDigits hmem).imp .inr id

/-- A whole number that is not large has a zero after the point in its document, and only zero
without a sign ends in its own text. -/
theorem text_of_whole (hfinite : x.isFinite = true) (hwhole : x.IsWhole) (h : x.size < 10 ^ 16) :
    x.write jsonLayout = x.write Value.numberLayout ++ ['.', '0'] ∧
      (x.write Value.numberLayout <:+ x.write jsonLayout ↔ x = zero) := by
  obtain ⟨negative, rank, hrank, rfl⟩ := exists_ranked hfinite
  obtain ⟨htext, hdigits⟩ := magnitudeText_of_whole hwhole h
  have hmore : Double.write jsonLayout (.ranked negative rank) =
      Double.write Value.numberLayout (.ranked negative rank) ++ ['.', '0'] := by
    rw [write_ranked negative hrank.ne, write_numberLayout negative hrank, htext, List.append_assoc]
  refine ⟨hmore, ?_⟩
  have hpoint : '.' ∉ (if negative then ['-'] else []) ++ magnitudeDigits rank := by
    rw [List.mem_append, not_or]
    exact ⟨by cases negative <;> decide, fun hmem => absurd (hdigits '.' hmem) (by decide)⟩
  have hzero : zero = .ranked false ⟨0, Nat.succ_pos _⟩ :=
    congrArg (ranked false) (Fin.ext (Nat.zero_min infinityRank))
  rw [hmore, write_numberLayout negative hrank,
    suffix_append_point_iff hpoint (by simp [magnitudeDigits_ne_nil]), hzero, ranked.injEq,
    Fin.ext_iff]
  cases negative with
  | true => exact iff_of_false (fun h => by cases (List.cons.inj h).1) (fun h => by cases h.1)
  | false => exact (magnitudeDigits_eq_zero_iff hwhole).trans (and_iff_right rfl).symm

/-- A number with a fraction whose first digit is near the point has one text, unless it is in the
middle of two shortest decimals. -/
theorem text_of_fraction (hfinite : x.isFinite = true) (hwhole : ¬ x.IsWhole)
    (hlow : 1 / 10 ^ 5 ≤ x.size) (hhigh : x.size < 10 ^ 16) :
    (¬ x.IsSplit → x.write jsonLayout = x.write Value.numberLayout) ∧
      (x.IsSplit → ¬ x.write Value.numberLayout <:+: x.write jsonLayout) := by
  obtain ⟨negative, rank, hrank, rfl⟩ := exists_ranked hfinite
  obtain ⟨hlength, hsame⟩ := magnitudeText_of_fraction hwhole hlow hhigh
  have hpos := pos_of_fraction hwhole
  rw [write_ranked negative hrank.ne, write_numberLayout negative hrank,
    isSplit_iff negative hpos]
  constructor
  · intro hone
    rw [hsame.mpr (not_not.mp hone)]
  · intro hsplit hinfix
    have heq := hinfix.eq_of_length (by simp [hlength])
    exact hsplit (hsame.mp (List.append_cancel_left heq).symm)

/-- A large or a small number does not stand in its document. -/
theorem not_infix_text (hfinite : x.isFinite = true)
    (h : 0 < x.size ∧ x.size < 1 / 10 ^ 5 ∨ 10 ^ 16 ≤ x.size) :
    ¬ x.write Value.numberLayout <:+: x.write jsonLayout := by
  obtain ⟨negative, rank, hrank, rfl⟩ := exists_ranked hfinite
  rw [write_ranked negative hrank.ne, write_numberLayout negative hrank]
  intro hinfix
  have hmagnitude : magnitudeDigits rank <:+:
      (if negative then ['-'] else []) ++ magnitudeText rank :=
    (List.suffix_append _ _).isInfix.trans hinfix
  rcases h with ⟨hpos, hsmall⟩ | hlarge
  · refine not_infix_of_small negative (Nat.pos_of_ne_zero fun hzero => ?_) hsmall hmagnitude
    rw [size, hzero, magnitude_zero] at hpos
    exact lt_irrefl 0 hpos
  · exact not_infix_of_large negative hrank hlarge hmagnitude

end Texts

end Double

namespace Value

/-- The text of a value within a pattern, and the text of its document. -/
theorem likeText?_toJson {v : Value} (h : v.HasOneText) :
    v.toJson.likeText? = some v.pattern ∧ Literal v.pattern.toList := by
  cases v with
  | bool b => cases b <;> exact ⟨rfl, by decide, by decide⟩
  | int i =>
    refine ⟨rfl, ?_⟩
    rw [show (Value.int i).pattern = String.ofList (intText i) from rfl, String.toList_ofList]
    exact literal_of_numeral fun _ hmem => .inl (isIntegerChar_of_mem_intText hmem)
  | text s => exact ⟨rfl, h⟩
  | null => cases h
  | float x => cases h
  | list items => cases h

theorem pattern_float (x : Double) : (Value.float x).pattern.toList = x.write numberLayout :=
  String.toList_ofList

theorem toJson_float {x : Double} (h : x.isFinite = true) :
    (Value.float x).toJson = .number (.double x) := by
  rw [toJson, Json.ofDouble, if_pos h]

theorem likeText?_float {x : Double} (h : x.isFinite = true) :
    (Value.float x).toJson.likeText? = some (String.ofList (x.write jsonLayout)) := by
  rw [toJson_float h, Json.likeText?, Number.text, if_pos h]

end Value

namespace Criterion

/-- What an operator with a value finds at a path. -/
def found (s : Scope) (source : Source) (path : String) (v : Value) (op : Operator) : Truth :=
  ((⟨path, v, op⟩ : Criterion).predicate source).eval s

variable {s : Scope} {source : Source} {path : String} {v : Value} {t : String}

section Places

variable (ht : (s.attribute? ⟨source, path⟩).bind (·.likeText?) = some t)
  (hliteral : Literal v.pattern.toList)

include ht hliteral

theorem found_of_counterpart {op op' : Operator} {before after place : Bool}
    (h : op.Counterpart op' before after)
    (hplace : (∃ a b, Occurs before after v.pattern.toList t.toList a b) ↔ place = true) :
    found s source path v op = .ofBool place := by
  obtain ⟨pattern, hpattern, hplain, -⟩ := predicate_of_counterpart h source path v
  rw [found, hplain, Predicate.eval_compare]
  show truthOfLike (s.attribute? ⟨source, path⟩) pattern = _
  rw [truthOfLike_of_text ht, hpattern]
  congr 1
  rw [Bool.eq_iff_iff, decide_eq_true_iff, ← hplace, ← Text.isLikeChars_framed_iff hliteral,
    Text.isLikeChars_iff_fits]

theorem found_anywhere {op : Operator} (h : op = .like ∨ op = .contains) :
    found s source path v op = .ofBool (v.pattern.toList <:+: t.toList) := by
  have hplace : (∃ a b, Occurs true true v.pattern.toList t.toList a b) ↔
      decide (v.pattern.toList <:+: t.toList) = true := by
    rw [Text.occurs_anywhere_iff, decide_eq_true_iff]
  rcases h with rfl | rfl
  · exact found_of_counterpart ht hliteral .like hplace
  · exact found_of_counterpart ht hliteral .contains hplace

theorem found_at_start :
    found s source path v .startsWith = .ofBool (v.pattern.toList <+: t.toList) := by
  refine found_of_counterpart ht hliteral .startsWith ?_
  rw [Text.occurs_at_start_iff, decide_eq_true_iff]

theorem found_at_end :
    found s source path v .endsWith = .ofBool (v.pattern.toList <:+ t.toList) := by
  refine found_of_counterpart ht hliteral .endsWith ?_
  rw [Text.occurs_at_end_iff, decide_eq_true_iff]

end Places

/-- Every operator finds a value that is the whole text. -/
theorem found_of_eq (ht : (s.attribute? ⟨source, path⟩).bind (·.likeText?) = some v.pattern)
    (hliteral : Literal v.pattern.toList) {op : Operator} (hop : op ∈ textOperators) :
    found s source path v op = .true := by
  simp only [textOperators, List.mem_cons, List.not_mem_nil, or_false] at hop
  rcases hop with rfl | rfl | rfl | rfl
  · rw [found_anywhere ht hliteral (.inl rfl), decide_eq_true List.infix_rfl]
    rfl
  · rw [found_anywhere ht hliteral (.inr rfl), decide_eq_true List.infix_rfl]
    rfl
  · rw [found_at_start ht hliteral, decide_eq_true List.prefix_rfl]
    rfl
  · rw [found_at_end ht hliteral, decide_eq_true List.suffix_rfl]
    rfl

/-- A value that the text starts with is found, except perhaps at the end. -/
theorem found_of_starts (ht : (s.attribute? ⟨source, path⟩).bind (·.likeText?) = some t)
    (hliteral : Literal v.pattern.toList) (hstart : v.pattern.toList <+: t.toList) :
    found s source path v .like = .true ∧ found s source path v .contains = .true ∧
      found s source path v .startsWith = .true := by
  rw [found_anywhere ht hliteral (.inl rfl), found_anywhere ht hliteral (.inr rfl),
    found_at_start ht hliteral, decide_eq_true hstart.isInfix, decide_eq_true hstart]
  exact ⟨rfl, rfl, rfl⟩

/-- No operator finds a value that has no place in the text. -/
theorem found_of_not_infix (ht : (s.attribute? ⟨source, path⟩).bind (·.likeText?) = some t)
    (hliteral : Literal v.pattern.toList) (hnone : ¬ v.pattern.toList <:+: t.toList)
    {op : Operator} (hop : op ∈ textOperators) : found s source path v op = .false := by
  simp only [textOperators, List.mem_cons, List.not_mem_nil, or_false] at hop
  rcases hop with rfl | rfl | rfl | rfl
  · rw [found_anywhere ht hliteral (.inl rfl), decide_eq_false hnone]
    rfl
  · rw [found_anywhere ht hliteral (.inr rfl), decide_eq_false hnone]
    rfl
  · rw [found_at_start ht hliteral, decide_eq_false fun h => hnone h.isInfix]
    rfl
  · rw [found_at_end ht hliteral, decide_eq_false fun h => hnone h.isInfix]
    rfl

/-- The operators that look for a value, on a document of the value itself.

1. They find a boolean, an integer, and a text without wildcards.
2. A whole number below ten to the sixteenth is found in the document and at its start. It is found
   at the end only if it is zero without a sign, since the document has a zero after the point.
3. A number with a fraction that is at least ten to the minus fifth, and below ten to the sixteenth,
   is found unless it is in the middle of two shortest decimals. Such a number is not found at all.
4. A number that is smaller, or greater, is not found at all: its document has an exponent. -/
theorem finds_own_text (h : s.attribute? ⟨source, path⟩ = some v.toJson) :
    (v.HasOneText → ∀ op ∈ textOperators, found s source path v op = .true) ∧
    ∀ x : Double, v = .float x → x.isFinite = true →
      (x.IsWhole → x.size < 10 ^ 16 →
        found s source path v .like = .true ∧ found s source path v .contains = .true ∧
        found s source path v .startsWith = .true ∧
        found s source path v .endsWith = .ofBool (x = .zero)) ∧
      (¬ x.IsWhole → 1 / 10 ^ 5 ≤ x.size → x.size < 10 ^ 16 →
        (¬ x.IsSplit → ∀ op ∈ textOperators, found s source path v op = .true) ∧
        (x.IsSplit → ∀ op ∈ textOperators, found s source path v op = .false)) ∧
      (0 < x.size ∧ x.size < 1 / 10 ^ 5 ∨ 10 ^ 16 ≤ x.size →
        ∀ op ∈ textOperators, found s source path v op = .false) := by
  refine ⟨fun hone op hop => ?_, fun x hv hfinite => ?_⟩
  · obtain ⟨htext, hliteral⟩ := Value.likeText?_toJson hone
    exact found_of_eq (by rw [h]; exact htext) hliteral hop
  · subst hv
    have ht : (s.attribute? ⟨source, path⟩).bind (·.likeText?) =
        some (String.ofList (x.write jsonLayout)) := by
      rw [h]
      exact Value.likeText?_float hfinite
    have hliteral : Literal (Value.float x).pattern.toList := by
      rw [Value.pattern_float]
      exact Double.literal_write hfinite
    refine ⟨fun hwhole hsmall => ?_, fun hfraction hlow hhigh => ⟨fun hone op hop => ?_,
      fun hsplit op hop => ?_⟩, fun hfar op hop => ?_⟩
    · obtain ⟨hmore, hend⟩ := Double.text_of_whole hfinite hwhole hsmall
      have hstart : (Value.float x).pattern.toList <+:
          (String.ofList (x.write jsonLayout)).toList := by
        rw [Value.pattern_float, String.toList_ofList, hmore]
        exact List.prefix_append _ _
      obtain ⟨hlike, hcontains, hstartsWith⟩ := found_of_starts ht hliteral hstart
      refine ⟨hlike, hcontains, hstartsWith, (found_at_end ht hliteral).trans ?_⟩
      congr 1
      rw [decide_eq_decide, Value.pattern_float, String.toList_ofList, hend]
    · have heq := (Double.text_of_fraction hfinite hfraction hlow hhigh).1 hone
      refine found_of_eq ?_ hliteral hop
      rw [ht, heq]
      rfl
    · have hnone := (Double.text_of_fraction hfinite hfraction hlow hhigh).2 hsplit
      exact found_of_not_infix ht hliteral
        (by rwa [Value.pattern_float, String.toList_ofList]) hop
    · have hnone := Double.not_infix_text hfinite hfar
      exact found_of_not_infix ht hliteral
        (by rwa [Value.pattern_float, String.toList_ofList]) hop

end Criterion

namespace Double

/-- Two, which has the text of an integer among values and a point in its document. -/
def two : Double := .ofNat 2

/-- One half. -/
def half : Double := .ranked false ⟨1022 * 2 ^ 52, by decide⟩

/-- A number with a quarter, in the middle of two shortest decimals. -/
def quarter : Double := .ranked false ⟨1073 * 2 ^ 52 + 1, by decide⟩

/-- A number with an exponent in its document. -/
def large : Double := .ofNat (10 ^ 16)

theorem size_two : two.size = (2 : Nat) / (1 : Nat) :=
  size_eq_div (2 * 2 ^ unitExponent : Nat) (by decide +kernel) (by decide)
    (by decide +kernel)

theorem size_half : half.size = (1 : Nat) / (2 : Nat) :=
  size_eq_div (2 ^ (unitExponent - 1) : Nat) (by decide +kernel) (by decide)
    (by decide +kernel)

theorem size_quarter : quarter.size = (2 ^ 52 + 1 : Nat) / (4 : Nat) :=
  size_eq_div ((2 ^ 52 + 1) * 2 ^ (unitExponent - 2) : Nat) (by decide +kernel)
    (by decide) (by decide +kernel)

theorem size_large : large.size = (10 ^ 16 : Nat) / (1 : Nat) :=
  size_eq_div (10 ^ 16 * 2 ^ unitExponent : Nat) (by decide +kernel) (by decide)
    (by decide +kernel)

end Double

namespace Criterion

open Double (two half quarter large size_two size_half size_quarter size_large)

/-- The document of a value alone. -/
def alone (v : Value) : Scope :=
  ⟨.object [("n", v.toJson)], []⟩

theorem attribute?_alone {x : Double} (h : x.isFinite = true) :
    (alone (.float x)).attribute? ⟨.root, "n"⟩ = some (Value.float x).toJson := by
  rw [alone, Value.toJson_float h]
  rfl

/-- A truth value and one half are found everywhere, two is not found at the end, and neither the
number with a quarter nor the large one is found. -/
theorem finds_own_text_alone :
    let found (v : Value) (op : Operator) : Truth := found (alone v) .root "n" v op
    (∀ op ∈ textOperators, found (.bool true) op = .true) ∧
    (∀ op ∈ textOperators, found (.float half) op = .true) ∧
    found (.float two) .startsWith = .true ∧ found (.float two) .endsWith = .false ∧
    (∀ op ∈ textOperators, found (.float quarter) op = .false) ∧
    ∀ op ∈ textOperators, found (.float large) op = .false := by
  have hbool : (alone (.bool true)).attribute? ⟨.root, "n"⟩ = some (Value.bool true).toJson := rfl
  have hflag := (finds_own_text hbool).1 trivial
  have hhalf : half.isFinite = true := by decide +kernel
  have htwo : two.isFinite = true := by decide +kernel
  have hquarter : quarter.isFinite = true := by decide +kernel
  have hlarge : large.isFinite = true := by decide +kernel
  obtain ⟨-, hone, -⟩ := (finds_own_text (attribute?_alone hhalf)).2 half rfl hhalf
  obtain ⟨hwhole, -⟩ := (finds_own_text (attribute?_alone htwo)).2 two rfl htwo
  obtain ⟨-, hmiddle, -⟩ := (finds_own_text (attribute?_alone hquarter)).2 quarter rfl hquarter
  obtain ⟨-, -, hfar⟩ := (finds_own_text (attribute?_alone hlarge)).2 large rfl hlarge
  obtain ⟨-, -, hstart, hend⟩ := hwhole
    ((Double.isWhole_iff htwo).mpr ⟨2, by rw [size_two]; norm_num⟩) (by rw [size_two]; norm_num)
  refine ⟨hflag, (hone ?_ ?_ ?_).1 ?_, hstart, hend.trans ?_, (hmiddle ?_ ?_ ?_).2 ?_, hfar ?_⟩
  · exact Double.not_isWhole (by decide) size_half (by decide)
  · rw [size_half]
    norm_num
  · rw [size_half]
    norm_num
  · rw [half, Double.isSplit_iff _ (by decide)]
    decide +kernel
  · decide +kernel
  · exact Double.not_isWhole (by decide) size_quarter (by decide)
  · rw [size_quarter]
    norm_num
  · rw [size_quarter]
    norm_num
  · rw [quarter, Double.isSplit_iff _ (by decide)]
    decide +kernel
  · rw [size_large]
    norm_num

/-- Two has the text of the integer among values, and a point and a zero in its document. -/
theorem two_ends_otherwise :
    found (alone (.float two)) .root "n" (.float two) .endsWith = .false := by
  decide +kernel

end Criterion

end Criteria
