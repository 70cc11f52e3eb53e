import Criteria.Proofs.Criterion.IgnoringCase
import Criteria.Proofs.Plan.Evaluator

/-!
# Comparisons with patterns

A comparison with a pattern is true of the values whose text can be cut into pieces for the
characters of the pattern, and false of those whose text cannot. Values without a text make it
unknown. An evaluator finds this truth with every engine for regular expressions that keeps to its
documentation, and fails where the engine refuses the expression. Operators that look for a value
without wildcards ask for a place where it stands in the text.

## Main definitions

- `RegexEngine.Takes`: an engine refuses no pattern of a predicate
- `Evaluator.Settles`: the truth of a predicate, and what an evaluator finds

## Main statements

- `Evaluator.like_fits`: the truth of comparisons with patterns
-/

namespace Criteria

open Text (RegexEngine likeRegex Fits patternParts Literal)

/-- The engine refuses no pattern of a predicate. -/
def Text.RegexEngine.Takes (engine : RegexEngine) (p : Predicate) : Prop :=
  ∀ operand pattern, .like operand pattern ∈ p.comparisons →
    ∃ test, engine.compile (likeRegex pattern) = .ok test

theorem Json.likeText?_eq_none_iff {j : Json} :
    j.likeText? = none ↔
      j = .null ∨ (∃ items, j = .array items) ∨ ∃ fields, j = .object fields := by
  cases j <;> simp [likeText?]

theorem truthOfLike_of_text {actual : Option Json} {t : String}
    (h : actual.bind (·.likeText?) = some t) (pattern : String) :
    truthOfLike actual pattern = .ofBool (Fits (patternParts pattern.toList) t.toList) := by
  simp only [truthOfLike, h, Text.isLike]
  congr 1
  rw [Bool.eq_iff_iff, Text.isLikeChars_iff_fits, decide_eq_true_iff]

theorem truthOfLike_of_no_text {actual : Option Json} (h : actual.bind (·.likeText?) = none)
    (pattern : String) : truthOfLike actual pattern = .unknown := by
  simp only [truthOfLike, h]

namespace Evaluator

variable {engine : RegexEngine} {s : Scope} {o : Operand} {pattern t : String}

/-- A predicate has a truth, and every faithful evaluator finds it if the engine refuses no pattern
of the predicate. -/
def Settles (engine : RegexEngine) (s : Scope) (p : Predicate) (truth : Truth) : Prop :=
  p.eval s = truth ∧
    (engine.Takes p → Yields (.ofRegexes engine) (evaluate (.ofRegexes engine) s p) (.ok truth))

theorem settles_eval (h : engine.Documented) (s : Scope) (p : Predicate) :
    Settles engine s p (p.eval s) := by
  refine ⟨rfl, fun htakes => yields_evaluate s p fun operand pattern hmem => ?_⟩
  obtain ⟨test, hcompile⟩ := htakes operand pattern hmem
  exact PatternEngine.tests_ofRegexes h hcompile

/-- A pattern that the engine refuses comes to light once there is a text to hold against it. -/
theorem yields_compare_like_of_refused {engine : PatternEngine} {reason : String}
    (ht : (s.operand? o).bind (·.likeText?) = some t)
    (hrefused : engine.prepare pattern = .error reason) :
    Yields engine (compare engine s (.like o pattern))
      (.error (.unusablePattern pattern reason)) := by
  have hmatcher := yields_matcher engine pattern
  rw [hrefused] at hmatcher
  let refused : ExecutionError := .unusablePattern pattern reason
  have hnext : ∀ test : String → Bool, Except.error refused = .ok test →
      Yields engine (pure (Truth.ofBool (test t))) (.error refused) := nofun
  simp only [compare, ht]
  exact hmatcher.bind hnext

/-- Without a text no pattern is looked at. -/
theorem yields_compare_like_of_no_text (engine : PatternEngine)
    (ht : (s.operand? o).bind (·.likeText?) = none) :
    Yields engine (compare engine s (.like o pattern)) (.ok .unknown) := by
  simp only [compare, ht]
  exact yields_pure _

/-- Comparisons with patterns, with an engine for regular expressions that keeps to its
documentation.

1. Where an operand has a text, a comparison is true if the text can be cut into one piece for each
   character of the pattern: any piece for `%`, one character for `_`, and the character itself for
   every other. Otherwise it is false. An evaluator finds this, or fails with the reason for which
   the engine refuses the pattern.
2. Where an operand has no text, a comparison is unknown, whatever the engine makes of the pattern.
   This is so if the operand is missing or null, an array or an object.
3. The operators that look for a value without wildcards say whether it stands in the text, at its
   start or at its end.
4. The engine that runs keeps to the documentation and refuses no pattern. -/
theorem like_fits (hengine : engine.Documented) (s : Scope) :
    (∀ (o : Operand) (pattern t : String), (s.operand? o).bind (·.likeText?) = some t →
      let truth : Truth := .ofBool (Fits (patternParts pattern.toList) t.toList)
      let found := Yields (.ofRegexes engine) (compare (.ofRegexes engine) s (.like o pattern))
      (Comparison.like o pattern).eval s = truth ∧
      (∀ test, engine.compile (likeRegex pattern) = .ok test → found (.ok truth)) ∧
      ∀ reason, engine.compile (likeRegex pattern) = .error reason →
        found (.error (.unusablePattern pattern reason))) ∧
    (∀ (o : Operand) (pattern : String), (s.operand? o).bind (·.likeText?) = none →
      (Comparison.like o pattern).eval s = .unknown ∧
      Yields (.ofRegexes engine) (compare (.ofRegexes engine) s (.like o pattern))
        (.ok .unknown)) ∧
    (∀ o : Operand, (s.operand? o).bind (·.likeText?) = none ↔
      s.operand? o = none ∨ s.operand? o = some .null ∨
        (∃ items, s.operand? o = some (.array items)) ∨
        ∃ fields, s.operand? o = some (.object fields)) ∧
    (∀ (source : Source) (path t : String) (v : Value),
      (s.attribute? ⟨source, path⟩).bind (·.likeText?) = some t → Literal v.pattern.toList →
      let settles (op : Operator) (found : Bool) : Prop :=
        Settles engine s ((⟨path, v, op⟩ : Criterion).predicate source) (.ofBool found)
      settles .like (v.pattern.toList <:+: t.toList) ∧
      settles .contains (v.pattern.toList <:+: t.toList) ∧
      settles .startsWith (v.pattern.toList <+: t.toList) ∧
      settles .endsWith (v.pattern.toList <:+ t.toList)) ∧
    RegexEngine.standard.Documented ∧
    ∀ pattern, ∃ test, RegexEngine.standard.compile (likeRegex pattern) = .ok test := by
  refine ⟨fun o pattern t ht => ⟨truthOfLike_of_text ht pattern, ?_, ?_⟩,
    fun o pattern ht => ⟨truthOfLike_of_no_text ht pattern, yields_compare_like_of_no_text _ ht⟩,
    fun o => ?_, fun source path t v ht hliteral => ?_, RegexEngine.standard_documented,
    fun pattern => ⟨_, RegexEngine.standard_compile_of_read (Text.readRegex?_likeRegex pattern)⟩⟩
  · intro test hcompile
    have htests := PatternEngine.tests_ofRegexes hengine hcompile
    rw [← truthOfLike_of_text ht pattern]
    refine yields_compare s fun operand pattern' heq => ?_
    obtain ⟨-, rfl⟩ := Comparison.like.inj heq
    exact htests
  · intro reason hrefused
    exact yields_compare_like_of_refused ht hrefused
  · cases s.operand? o with
    | none => simp
    | some j => simp [Json.likeText?_eq_none_iff]
  · intro settles
    have hsettles {op op' : Operator} {before after : Bool} {found : Bool}
        (h : op.Counterpart op' before after)
        (hfound : (∃ a b, Text.Occurs before after v.pattern.toList t.toList a b) ↔ found = true) :
        settles op found := by
      obtain ⟨pattern, hpattern, hplain, -⟩ := Criterion.predicate_of_counterpart h source path v
      have htruth : ((⟨path, v, op⟩ : Criterion).predicate source).eval s = .ofBool found := by
        rw [hplain, Predicate.eval_compare]
        show truthOfLike (s.attribute? ⟨source, path⟩) pattern = _
        rw [truthOfLike_of_text ht, hpattern]
        congr 1
        rw [Bool.eq_iff_iff, decide_eq_true_iff, ← hfound, ← Text.isLikeChars_framed_iff hliteral,
          Text.isLikeChars_iff_fits]
      show Settles engine s _ _
      rw [← htruth]
      exact settles_eval hengine s _
    refine ⟨hsettles .like ?_, hsettles .contains ?_, hsettles .startsWith ?_,
      hsettles .endsWith ?_⟩
    · rw [Text.occurs_anywhere_iff, decide_eq_true_iff]
    · rw [Text.occurs_anywhere_iff, decide_eq_true_iff]
    · rw [Text.occurs_at_start_iff, decide_eq_true_iff]
    · rw [Text.occurs_at_end_iff, decide_eq_true_iff]

/-- A document with a name of two lines. -/
def twoLines : Scope :=
  ⟨.object [("name", .text "a.c\nd"), ("tags", .array [])], []⟩

/-- The run takes the line end in, the dot stands for no other character, and an array has no
text. -/
theorem like_fits_twoLines :
    let patterns : PatternEngine := .ofRegexes .standard
    let found (path pattern : String) : Except ExecutionError Truth :=
      (compare patterns twoLines (.like (.plain ⟨.root, path⟩) pattern)).run' {}
    found "name" "a.%_d" = .ok .true ∧ found "name" "a.." = .ok .false ∧
      found "tags" "%" = .ok .unknown ∧
      (evaluate patterns twoLines
        ((⟨"name", .text ".c", .contains⟩ : Criterion).predicate .root)).run' {} = .ok .true := by
  obtain ⟨htexts, hnone, -, hvalues, hdocumented, htakes⟩ :=
    like_fits RegexEngine.standard_documented twoLines
  have hname : (twoLines.operand? (.plain ⟨.root, "name"⟩)).bind (·.likeText?) =
      some "a.c\nd" := rfl
  obtain ⟨test, htest⟩ := htakes "a.%_d"
  obtain ⟨test', htest'⟩ := htakes "a.."
  have hrun := (htexts _ "a.%_d" _ hname).2.1 test htest
  have hdots := (htexts _ "a.." _ hname).2.1 test' htest'
  have hliteral : Literal (Value.text ".c").pattern.toList := ⟨by decide, by decide⟩
  obtain ⟨-, hcontains, -⟩ := hvalues .root "name" _ (.text ".c") hname hliteral
  refine ⟨hrun.run'_empty.trans ?_, hdots.run'_empty.trans ?_, (hnone _ "%" rfl).2.run'_empty,
    (hcontains.2 fun _ pattern _ => htakes pattern).run'_empty.trans ?_⟩ <;> decide +kernel

end Evaluator

end Criteria
