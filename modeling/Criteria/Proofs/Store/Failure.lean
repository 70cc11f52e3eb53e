import Criteria.Proofs.Plan.Acceptance
import Criteria.Proofs.Plan.Selection
import Criteria.Proofs.Store.Agreement

/-!
# How a query fails

A query fails in one of two ways: its condition is not accepted, or one of the documents has too
many bindings. A condition that has been checked is accepted for every purpose, so that only the
second way is left.

## Main statements

- `Store.exists_select_of_outcome_run_eq_ok`: what a query that succeeds consists of
- `Store.exists_of_outcome_run_eq_error`: the two ways to fail
- `Condition.compile_accepts`: which conditions are accepted, with what error others are refused,
  and what may happen to a condition that has been checked
-/

namespace Criteria

namespace Store

theorem outcome_run_of_compile_eq_ok {s : Store} {c : Condition} {purpose : Purpose} {p : Plan}
    (h : c.compile purpose = .ok p) :
    (s.run c purpose).outcome =
      ((p.select s.settings.bindingLimit s.documents).mapError .execution).map (·.documents) := by
  rw [outcome_run, h]
  rfl

/-- A query succeeds if its condition compiles and the plan has a selection. -/
theorem exists_select_of_outcome_run_eq_ok {s : Store} {c : Condition} {purpose : Purpose}
    {rows : List Json} (h : (s.run c purpose).outcome = .ok rows) :
    ∃ found, c.compile purpose = .ok (c.plan purpose) ∧
      (c.plan purpose).select s.settings.bindingLimit s.documents = .ok found ∧
      found.documents = rows := by
  cases hcompile : c.compile purpose with
  | error e =>
    rw [outcome_run, hcompile] at h
    cases h
  | ok p =>
    obtain ⟨-, rfl⟩ := Condition.compile_eq_ok_iff.mp hcompile
    rw [outcome_run_of_compile_eq_ok hcompile] at h
    cases hselect : (c.plan purpose).select s.settings.bindingLimit s.documents with
    | error e =>
      rw [hselect] at h
      cases h
    | ok found =>
      rw [hselect] at h
      exact ⟨found, rfl, rfl, Except.ok.inj h⟩

/-- A query fails in the compilation of its condition or on a document with too many bindings. -/
theorem exists_of_outcome_run_eq_error {s : Store} {c : Condition} {purpose : Purpose}
    {e : QueryError} (h : (s.run c purpose).outcome = .error e) :
    (∃ e', c.compile purpose = .error e' ∧ e = .condition e') ∨
      ∃ p, c.compile purpose = .ok p ∧
        e = .execution (.tooManyBindings (max s.settings.bindingLimit 1)) := by
  cases hcompile : c.compile purpose with
  | error e' =>
    rw [outcome_run, hcompile] at h
    cases h
    exact .inl ⟨e', rfl, rfl⟩
  | ok p =>
    rw [outcome_run_of_compile_eq_ok hcompile] at h
    cases hselect : p.select s.settings.bindingLimit s.documents with
    | ok found =>
      rw [hselect] at h
      cases h
    | error e' =>
      obtain rfl := Plan.eq_of_select_eq_error hselect
      rw [hselect] at h
      cases h
      exact .inr ⟨p, rfl, rfl⟩

end Store

namespace Condition

/-- Which conditions are accepted, and what follows for those that have been checked.

1. The criteria that matter are those of the documents, their alternatives, and for each join in
   preorder its own criteria and their alternatives.
2. A condition is refused if one of them takes part and is ill formed, whatever the query is for.
3. The error is the fault of the first of these.
4. A condition that has been checked is accepted for every purpose, and a query with it can fail
   on a document with too many bindings only.
5. A condition that has been read from text has been checked.
6. What a criterion is compiled to does not depend on what would become of a value that is not a
   list or a pair where its operator needs one. -/
theorem compile_accepts (c : Condition) :
    c.consulted = c.filter.criteria ++ c.filter.alternatives ++
      ((Join.locatedAll [] c.joins).flatMap fun l =>
        l.join.filter.criteria ++ l.join.filter.alternatives) ∧
    (∀ purpose, (∃ e, c.compile purpose = .error e) ↔
      ∃ k ∈ c.consulted, k.isSkipped = false ∧ ¬ k.WellFormed) ∧
    (∀ purpose e, c.compile purpose = .error e ↔
      ∃ before k after, c.consulted = before ++ k :: after ∧
        (∀ b ∈ before, b.isSkipped = true ∨ b.WellFormed) ∧ k.isSkipped = false ∧ k.Fault e) ∧
    (c.check = .ok () → ∀ purpose, (∃ p, c.compile purpose = .ok p) ∧
      ∀ (s : Store) (e : QueryError), (s.run c purpose).outcome = .error e →
        e = .execution (.tooManyBindings (max s.settings.bindingLimit 1)) ∧
          e.code = "EXEC_BINDING_LIMIT") ∧
    (∀ text, (ofText text).outcome = .ok c → c.check = .ok ()) ∧
    ∀ (k : Criterion) (source : Source) (noList noPair : Except ConditionError Predicate),
      k.compile source = k.checkActive.bind fun _ => k.predicateOr source noList noPair := by
  refine ⟨c.consulted_eq_located, fun purpose => ?_, fun purpose e => compile_eq_error_iff,
    fun hcheck purpose => ?_, fun text => check_of_ofText,
    fun k source noList noPair => k.compile_eq_predicateOr source noList noPair⟩
  · constructor
    · rintro ⟨e, he⟩
      obtain ⟨before, k, after, hsplit, -, hskipped, hfault⟩ := compile_eq_error_iff.mp he
      exact ⟨k, by simp [hsplit], hskipped, Criterion.not_wellFormed_iff.mpr ⟨e, hfault⟩⟩
    · rintro ⟨k, hk, hskipped, hformed⟩
      cases hcompile : c.compile purpose with
      | error e => exact ⟨e, rfl⟩
      | ok p =>
        -- then all criteria would have been accepted
        have haccepted := checkActives_eq_ok_iff.mp (compile_eq_ok_iff.mp hcompile).1 k hk
        rcases haccepted with hskips | hwell
        · rw [hskips] at hskipped
          cases hskipped
        · exact absurd hwell hformed
  · have hcompile := compile_eq_ok_of_accepted (accepted_of_check hcheck) purpose
    refine ⟨⟨_, hcompile⟩, fun s e he => ?_⟩
    rcases Store.exists_of_outcome_run_eq_error he with ⟨e', herror, -⟩ | ⟨p, -, rfl⟩
    · rw [hcompile] at herror
      cases herror
    · exact ⟨rfl, rfl⟩

/-- Posts with comments of an age for which the bounds are incomplete. -/
def commentsOfAge : Condition where
  filter := { criteria := [⟨"title", .null, .like⟩] }
  joins :=
    [{ key := "comments", kind := .inner,
       filter := { criteria := [⟨"age", .list [.int 1], .between⟩, ⟨" ", .int 1, .equals⟩] } }]

/-- The bounds are refused before the blank path, and a null value is not looked at. A query for
posts with their comments cannot be refused, but a limit of one is too low for it. -/
theorem compile_accepts_commentsOfAge :
    commentsOfAge.compile .number =
        .error (.unfitValue "age" .between "expected a [lower, upper] pair, found a list") ∧
      ∃ e, ({ Store.blog with settings := { bindingLimit := 1 } }.run Store.withComments
        .documents).outcome = .error e ∧ e.code = "EXEC_BINDING_LIMIT" := by
  obtain ⟨-, -, hfirst, -⟩ := compile_accepts commentsOfAge
  obtain ⟨-, -, -, hchecked, -⟩ := compile_accepts Store.withComments
  have hrun : ({ Store.blog with settings := { bindingLimit := 1 } }.run Store.withComments
      .documents).outcome = .error (.execution (.tooManyBindings 1)) := rfl
  refine ⟨(hfirst .number _).mpr ⟨[⟨"title", .null, .like⟩], ⟨"age", .list [.int 1], .between⟩,
    [⟨" ", .int 1, .equals⟩], rfl, ?_, rfl, ?_⟩, _, hrun,
    ((hchecked rfl .documents).2 _ _ hrun).2⟩
  · intro b hb
    obtain rfl := List.mem_singleton.mp hb
    exact .inl rfl
  · have hunfit : (Value.list [.int 1]).check .pair =
        .error (.expected "a [lower, upper] pair" "a list") := rfl
    have hpath : ∀ part ∈ Path.parts "age", Text.isBlank part = false := by decide
    exact .value (c := ⟨"age", .list [.int 1], .between⟩) hpath hunfit

end Condition

end Criteria
