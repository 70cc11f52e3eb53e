import Mathlib.Logic.Basic
import Criteria.Proofs.Store.Rows

/-!
# Opposite operators

Some operators come in pairs of which one asks for the opposite of the other. In three-valued logic
the truth of the one is the negation of the truth of the other, on every row and with every value.
So no document is found with both, unless both are skipped and restrict nothing.

## Main definitions

- `Operator.Opposite`: the pairs of operators
- `Comparison.Opposite`, `Predicate.Opposite`: what they are compiled to
- `Criterion.query`: the distinct query with one criterion

## Main statements

- `Predicate.Opposite.eval_eq`, `Predicate.Opposite.evaluate_eq`: opposites are negations
- `Operator.Opposite.complementary`: opposite operators in predicates and in queries
-/

namespace Criteria

/-- Two operators of which the second asks for the opposite of the first. -/
inductive Operator.Opposite : Operator → Operator → Prop
  | equals : Opposite .equals .notEquals
  | isIn : Opposite .isIn .notIn
  | between : Opposite .between .notBetween
  | contains : Opposite .contains .notContains
  | containsIgnoreCase : Opposite .containsIgnoreCase .notContainsIgnoreCase
  | isNull : Opposite .isNull .notNull
  | isEmpty : Opposite .isEmpty .isNotEmpty
  | lessThan : Opposite .lessThan .greaterEquals
  | lessEquals : Opposite .lessEquals .greaterThan
  | lessThanTime : Opposite .lessThanTime .greaterEqualsTime
  | lessEqualsTime : Opposite .lessEqualsTime .greaterThanTime
  | sizeLessThan : Opposite .sizeLessThan .sizeGreaterEquals
  | sizeLessEquals : Opposite .sizeLessEquals .sizeGreaterThan

/-- Two comparisons, none of them with a pattern, of which the second is the opposite of the
first. -/
inductive Comparison.Opposite : Comparison → Comparison → Prop
  | equal (o : Operand) (v : Value) : Opposite (.equal o v) (.notEqual o v)
  | lessThan (o : Operand) (v : Value) : Opposite (.lessThan o v) (.greaterEquals o v)
  | lessEquals (o : Operand) (v : Value) : Opposite (.lessEquals o v) (.greaterThan o v)
  | isNull (o : Operand) : Opposite (.isNull o) (.isNotNull o)
  | isEmpty (o : Operand) : Opposite (.isEmpty o) (.isNotEmpty o)

/-- Two predicates of which the second is the opposite of the first, by a negation or by its
comparison. -/
inductive Predicate.Opposite : Predicate → Predicate → Prop
  | negation (p : Predicate) : Opposite p (.not p)
  | comparison {c c' : Comparison} (h : c.Opposite c') : Opposite (.compare c) (.compare c')

theorem Truth.not_eq_unknown_iff {t : Truth} : t.not = .unknown ↔ t = .unknown := by
  cases t <;> decide

theorem Truth.ofBool_ne_unknown (b : Bool) : Truth.ofBool b ≠ .unknown := by
  cases b <;> decide

/-- One of a truth and its negation is true, unless they are unknown. -/
theorem Truth.xor_not_or_unknown (t : Truth) :
    Xor (t = .true) (t.not = .true) ∨ t = .unknown ∧ t.not = .unknown := by
  cases t <;> simp [Truth.not, Xor]

/-- Values that cannot be compared are in no order, and not in the opposite one either. -/
theorem truthOfOrder_not {accept reject : Ordering → Bool} (h : ∀ o, reject o = !accept o)
    (actual : Option Json) (bound : Json) :
    truthOfOrder actual bound reject = (truthOfOrder actual bound accept).not := by
  unfold truthOfOrder
  cases actual.bind (·.compare? bound) with
  | none => rfl
  | some order =>
    show Truth.ofBool (reject order) = _
    rw [h, Truth.not_ofBool]

theorem Comparison.Opposite.eval_eq {c c' : Comparison} (h : c.Opposite c') (s : Scope) :
    c'.eval s = (c.eval s).not := by
  cases h with
  | equal o v => rfl
  | lessThan o v => exact truthOfOrder_not (fun order => by cases order <;> rfl) _ _
  | lessEquals o v => exact truthOfOrder_not (fun order => by cases order <;> rfl) _ _
  | isNull o =>
    rw [Comparison.eval, Comparison.eval, Truth.not_ofBool, Option.not_isNone]
  | isEmpty o => exact (Truth.not_ofBool _).symm

namespace Predicate.Opposite

variable {p q : Predicate}

theorem eval_eq (h : p.Opposite q) (s : Scope) : q.eval s = (p.eval s).not := by
  cases h with
  | negation => rw [eval_not]
  | comparison h => rw [eval_compare, eval_compare, h.eval_eq]

/-- An evaluator finds the negation of what it finds for the opposite, and fails where it fails. -/
theorem evaluate_eq (h : p.Opposite q) (engine : PatternEngine) (s : Scope) :
    Evaluator.evaluate engine s q = Truth.not <$> Evaluator.evaluate engine s p := by
  cases h with
  | negation => rw [Evaluator.evaluate, map_eq_pure_bind]
  | comparison h =>
    have heval := h.eval_eq s
    rw [Evaluator.evaluate, Evaluator.evaluate]
    cases h <;> simp only [Evaluator.compare, map_pure, heval]

end Predicate.Opposite

/-- The distinct query with one criterion on the documents. -/
def Criterion.query (c : Criterion) : Condition where
  filter := { criteria := [c] }
  distinct := true

namespace Store

variable {c : Criterion}

theorem outcome_findAll_query_of_skipped (h : c.isSkipped = true) (s : Store) :
    (s.findAll c.query).outcome = .ok s.documents := by
  have hconsulted : c.query.filter.consulted = [c] := rfl
  have htruth (document : Json) : c.query.filter.truthOn document = .true := by
    simp [Filter.truthOn, truthsOn, Criterion.query, h, Filter.alternatives, Truth.pool]
  have haccepted : ∀ k ∈ c.query.filter.consulted, k.Accepted := by
    rw [hconsulted]
    exact List.forall_mem_singleton.mpr (.inl h)
  rw [outcome_findAll_of_joins_eq_nil rfl haccepted]
  simp only [htruth, decide_true, List.filter_true]

/-- A query with one criterion that takes part finds the documents that make it true. -/
theorem outcome_findAll_query (h : c.isSkipped = false)
    (hfits : c.value.Fits c.operator.expects) (s : Store) :
    (s.findAll c.query).outcome = ((Path.segments c.path).mapError .condition).map fun _ =>
      s.documents.filter fun document => (c.predicate .root).eval ⟨document, []⟩ = .true := by
  have hconsulted : c.query.consulted = [c] := rfl
  have hcheck := Criterion.checkActive_of_fits hfits
  cases hpath : Path.segments c.path with
  | error e =>
    rw [hpath] at hcheck
    rw [findAll, outcome_run, Condition.compile_eq, hconsulted, checkActives_singleton h, hcheck]
    rfl
  | ok segments =>
    have haccepted : ∀ k ∈ c.query.filter.consulted, k.Accepted := by
      rw [hpath] at hcheck
      exact List.forall_mem_singleton.mpr (.inr (Criterion.checkActive_eq_ok_iff.mp hcheck))
    have htruth (document : Json) : c.query.filter.truthOn document =
        (c.predicate .root).eval ⟨document, []⟩ := by
      rw [Criterion.eval_predicate]
      exact Filter.truthOn_singleton h document
    rw [outcome_findAll_of_joins_eq_nil rfl haccepted]
    simp only [htruth]
    rfl

end Store

namespace Operator.Opposite

variable {op op' : Operator}

theorem expects_eq (h : op.Opposite op') : op'.expects = op.expects := by
  cases h <;> rfl

theorem isSkipped_eq (h : op.Opposite op') (path : String) (value : Value) :
    (⟨path, value, op'⟩ : Criterion).isSkipped = (⟨path, value, op⟩ : Criterion).isSkipped := by
  cases h <;> rfl

/-- Opposite operators are compiled to opposite predicates. -/
theorem predicate (h : op.Opposite op') (source : Source) (path : String) (value : Value) :
    ((⟨path, value, op⟩ : Criterion).predicate source).Opposite
      ((⟨path, value, op'⟩ : Criterion).predicate source) := by
  cases h with
  | equals => exact .comparison (.equal _ _)
  | isIn | between | contains | containsIgnoreCase => exact .negation _
  | isNull => exact .comparison (.isNull _)
  | isEmpty => exact .comparison (.isEmpty _)
  | lessThan | lessThanTime | sizeLessThan => exact .comparison (.lessThan _ _)
  | lessEquals | lessEqualsTime | sizeLessEquals => exact .comparison (.lessEquals _ _)

/-- Operators without a value always have an answer. -/
theorem eval_ne_unknown (h : op.Opposite op') (hnullness : op.isNullness = true) (source : Source)
    (path : String) (value : Value) (s : Scope) :
    ((⟨path, value, op⟩ : Criterion).predicate source).eval s ≠ .unknown := by
  cases h with
  | isNull | isEmpty =>
    rw [Criterion.predicate, Predicate.eval_compare]
    exact Truth.ofBool_ne_unknown _
  | _ => cases hnullness

/-- Opposite operators on the same path and with the same value.

1. Each of them is compiled to its predicate if it may be given the value and no segment of the
   path is blank. The value and the path decide that, so both are compiled or none is.
2. On every row of every source, the truth of the second is the negation of the truth of the first.
   So they are not true together, and exactly one of them is unless both are unknown. Evaluators
   find it with every engine for patterns, and fail with both where they fail with one.
3. Tests for null and for emptiness are never unknown.
4. With a value that does not make them skipped, distinct queries for one or the other find the
   documents that make it true, and no position of a store is found with both. Both fail with the
   same error if a segment of the path is blank.
5. With a null value where one is needed, both are skipped, so both queries find all documents. -/
theorem complementary (h : op.Opposite op') (path : String) (value : Value) :
    let first : Criterion := ⟨path, value, op⟩
    let second : Criterion := ⟨path, value, op'⟩
    op'.expects = op.expects ∧
    (value.Fits op.expects → ∀ source,
      first.compile source = (Path.segments path).map (fun _ => first.predicate source) ∧
      second.compile source = (Path.segments path).map fun _ => second.predicate source) ∧
    (∀ (source : Source) (s : Scope),
      let truth := (first.predicate source).eval s
      let truth' := (second.predicate source).eval s
      truth' = truth.not ∧ ¬ (truth = .true ∧ truth' = .true) ∧
      (Xor (truth = .true) (truth' = .true) ∨ truth = .unknown ∧ truth' = .unknown) ∧
      (op.isNullness = true → truth ≠ .unknown ∧ truth' ≠ .unknown) ∧
      ∀ engine : PatternEngine, Evaluator.evaluate engine s (second.predicate source) =
        Truth.not <$> Evaluator.evaluate engine s (first.predicate source)) ∧
    (value.Fits op.expects → first.isSkipped = false → ∀ s : Store,
      let found (c : Criterion) (document : Json) : Prop :=
        (c.predicate .root).eval ⟨document, []⟩ = .true
      let segments := (Path.segments path).mapError QueryError.condition
      (s.findAll first.query).outcome =
        segments.map (fun _ => s.documents.filter fun document => found first document) ∧
      (s.findAll second.query).outcome =
        segments.map (fun _ => s.documents.filter fun document => found second document) ∧
      ∀ document, ¬ (found first document ∧ found second document)) ∧
    (first.isSkipped = true ↔ value = .null ∧ op.isNullness = false) ∧
    (first.isSkipped = true → ∀ s : Store,
      (s.findAll first.query).outcome = .ok s.documents ∧
      (s.findAll second.query).outcome = .ok s.documents) := by
  intro first second
  have hskipped : second.isSkipped = first.isSkipped := h.isSkipped_eq path value
  have hnot (source : Source) (s : Scope) :
      (second.predicate source).eval s = ((first.predicate source).eval s).not :=
    (h.predicate source path value).eval_eq s
  have hnever (source : Source) (s : Scope) :
      ¬ ((first.predicate source).eval s = .true ∧ (second.predicate source).eval s = .true) := by
    rw [hnot]
    rintro ⟨htrue, hfalse⟩
    rw [htrue] at hfalse
    cases hfalse
  have hsecond (hfits : value.Fits op.expects) : second.value.Fits second.operator.expects := by
    show value.Fits op'.expects
    rwa [h.expects_eq]
  refine ⟨h.expects_eq, fun hfits source => ⟨?_, ?_⟩, fun source s => ?_, fun hfits htakes s => ?_,
    ?_, fun hskip s => ?_⟩
  · exact Criterion.compile_of_fits source hfits
  · exact Criterion.compile_of_fits source (hsecond hfits)
  · refine ⟨hnot source s, hnever source s, ?_, fun hnullness => ?_, ?_⟩
    · rw [hnot]
      exact Truth.xor_not_or_unknown _
    · have hfirst := h.eval_ne_unknown hnullness source path value s
      rw [hnot, ne_eq, ne_eq, Truth.not_eq_unknown_iff]
      exact ⟨hfirst, hfirst⟩
    · exact fun engine => (h.predicate source path value).evaluate_eq engine s
  · exact ⟨Store.outcome_findAll_query htakes hfits s,
      Store.outcome_findAll_query (hskipped.trans htakes) (hsecond hfits) s,
      fun document => hnever .root ⟨document, []⟩⟩
  · show (value.isNull && !op.isNullness) = true ↔ _
    cases value <;> simp [Value.isNull]
  · exact ⟨Store.outcome_findAll_query_of_skipped hskip s,
      Store.outcome_findAll_query_of_skipped (hskipped.trans hskip) s⟩

/-- Two posts with a title and one without. -/
def titledPosts : Store where
  entity := "posts"
  documents :=
    [.object [("title", .text "Lean")], .object [("title", .text "Rust")],
     .object [("title", .null)]]

/-- The post without a title is found neither with an operator nor with the opposite. -/
theorem complementary_titledPosts :
    (titledPosts.findAll (Criterion.query ⟨"title", .text "an", .contains⟩)).outcome =
        .ok [.object [("title", .text "Lean")]] ∧
      (titledPosts.findAll (Criterion.query ⟨"title", .text "an", .notContains⟩)).outcome =
        .ok [.object [("title", .text "Rust")]] ∧
      ((⟨"title", .text "an", .notContains⟩ : Criterion).predicate .root).eval
        ⟨.object [("title", .null)], []⟩ = .unknown := by
  obtain ⟨-, -, htruths, hqueries, -, -⟩ := complementary .contains "title" (.text "an")
  have hfits : (Value.text "an").Fits Operator.contains.expects := nofun
  obtain ⟨hfound, hothers, -⟩ := hqueries hfits rfl titledPosts
  refine ⟨hfound.trans ?_, hothers.trans ?_, ?_⟩
  · rfl
  · rfl
  · rw [(htruths .root _).1]
    rfl

/-- A null value makes both operators skipped, so both queries find the document. -/
theorem not_disjoint_of_null :
    let s : Store := { entity := "posts", documents := [.object [("title", .text "x")]] }
    Operator.Opposite .equals .notEquals ∧ Value.null.Fits Operator.equals.expects ∧
      (s.findAll (Criterion.query ⟨"title", .null, .equals⟩)).outcome =
        .ok [.object [("title", .text "x")]] ∧
      (s.findAll (Criterion.query ⟨"title", .null, .notEquals⟩)).outcome =
        .ok [.object [("title", .text "x")]] :=
  ⟨.equals, nofun, rfl, rfl⟩

end Operator.Opposite

end Criteria
