import Criteria.Proofs.Plan.Acceptance
import Criteria.Proofs.Plan.Alike

/-!
# Skipped criteria do not count

A criterion with a null value that needs one takes no part in a query. So it may as well be left
out, wherever it stands: the plan is the same, and so is the error if there is one.

## Main definitions

- `Filter.dropSkipped`, `Condition.dropSkipped`: a condition without its skipped criteria

## Main statements

- `Condition.consulted_dropSkipped`: which criteria are left of those that a plan depends on
- `Condition.compile_dropSkipped`: the same plan, or the same error
-/

namespace Criteria

/-- The criteria that take part. -/
def takingPart (criteria : List Criterion) : List Criterion :=
  criteria.filter fun c => !c.isSkipped

theorem takingPart_takingPart (criteria : List Criterion) :
    takingPart (takingPart criteria) = takingPart criteria := by
  simp [takingPart, List.filter_filter]

theorem activePredicates_takingPart (source : Source) (criteria : List Criterion) :
    activePredicates source (takingPart criteria) = activePredicates source criteria :=
  congrArg (List.map _) (takingPart_takingPart criteria)

theorem checkActives_takingPart (criteria : List Criterion) :
    checkActives (takingPart criteria) = checkActives criteria :=
  congrArg (List.forM · _) (takingPart_takingPart criteria)

theorem countP_isSkipped_takingPart (criteria : List Criterion) :
    (takingPart criteria).countP Criterion.isSkipped = 0 := by
  rw [List.countP_eq_zero]
  intro k hk
  simpa using (List.mem_filter.mp hk).2

/-- Each criterion takes part or is skipped. -/
theorem countP_isSkipped_add_length (criteria : List Criterion) :
    criteria.countP Criterion.isSkipped + (takingPart criteria).length = criteria.length := by
  simpa [takingPart, List.countP_eq_length_filter] using
    (List.length_eq_countP_add_countP Criterion.isSkipped (l := criteria)).symm

namespace Filter

/-- The filter without the criteria that are skipped, at every depth. -/
def dropSkipped : Filter → Filter
  | ⟨criteria, none⟩ => ⟨takingPart criteria, none⟩
  | ⟨criteria, some group⟩ => ⟨takingPart criteria, some group.dropSkipped⟩

variable (f : Filter)

theorem criteria_dropSkipped : f.dropSkipped.criteria = takingPart f.criteria := by
  obtain ⟨criteria, - | group⟩ := f <;> rw [dropSkipped]

theorem alternatives_dropSkipped : f.dropSkipped.alternatives = takingPart f.alternatives := by
  obtain ⟨criteria, - | group⟩ := f
  · rw [dropSkipped]
    rfl
  · rw [dropSkipped]
    exact group.criteria_dropSkipped

theorem consulted_dropSkipped : f.dropSkipped.consulted = takingPart f.consulted := by
  rw [consulted, consulted, criteria_dropSkipped, alternatives_dropSkipped]
  exact (List.filter_append f.criteria f.alternatives).symm

theorem activeClauses_dropSkipped (source : Source) :
    f.dropSkipped.activeClauses source = f.activeClauses source := by
  rw [activeClauses, activeClauses, criteria_dropSkipped, alternatives_dropSkipped,
    activePredicates_takingPart, activePredicates_takingPart]

/-- A filter without criteria has no clauses. -/
theorem activeClauses_of_consulted {f : Filter} (h : f.consulted = []) (source : Source) :
    f.activeClauses source = ⟨none, none⟩ := by
  obtain ⟨hcriteria, halternatives⟩ := List.append_eq_nil_iff.mp h
  rw [activeClauses, hcriteria, halternatives]
  rfl

end Filter

namespace Condition

/-- The condition without the criteria that are skipped, in every group of its filter and of the
filters of its joins. -/
def dropSkipped (c : Condition) : Condition :=
  { c with
    filter := c.filter.dropSkipped
    joins := Join.mapFiltersAll Filter.dropSkipped c.joins }

variable (c : Condition)

theorem alike_dropSkipped :
    Join.Alike (fun f g => g = f.dropSkipped) c.joins c.dropSkipped.joins :=
  Join.alike_mapFiltersAll Filter.dropSkipped c.joins

/-- Of the criteria that a plan depends on, those that take part are left. -/
theorem consulted_dropSkipped : c.dropSkipped.consulted = takingPart c.consulted := by
  have hvisits : (c.dropSkipped.visits .documents).map (fun v => v.filter.consulted) =
      (c.visits .documents).map fun v => takingPart v.filter.consulted := by
    refine Visit.map_eq_of_forall₂ (fun v w alike => ?_)
      (forall₂_visits c.alike_dropSkipped rfl .documents)
    rw [alike.filter, Filter.consulted_dropSkipped]
  rw [consulted, consulted, takingPart, List.filter_append, List.filter_flatMap, List.flatMap_def,
    hvisits, ← List.flatMap_def]
  exact congrArg (· ++ _) c.filter.consulted_dropSkipped

theorem plan_dropSkipped (purpose : Purpose) :
    c.dropSkipped.plan purpose = { c.plan purpose with skipped := 0 } := by
  have hjoins : Join.Alike
      (fun f g => ∀ source, g.activeClauses source = f.activeClauses source)
      c.joins c.dropSkipped.joins := by
    refine c.alike_dropSkipped.mono fun f g hdropped source => ?_
    rw [hdropped, Filter.activeClauses_dropSkipped]
  rw [plan_eq_of_clauses (c := c) (c.filter.activeClauses_dropSkipped .root) hjoins rfl rfl,
    consulted_dropSkipped, countP_isSkipped_takingPart]

/-- Nothing is asked where there are no criteria, whatever the joins are. -/
theorem predicate_plan_of_consulted_eq_nil {c : Condition} (h : c.consulted = [])
    (purpose : Purpose) : (c.plan purpose).predicate = .always := by
  rw [c.consulted_eq purpose, List.append_eq_nil_iff, List.flatMap_eq_nil_iff] at h
  obtain ⟨hfilter, hvisits⟩ := h
  have hroot : c.rootClause = none := by
    rw [rootClause, Filter.activeClauses_of_consulted hfilter]
    rfl
  have hjoin : joinClause (c.visits purpose) = none := by
    have hclauses : (c.visits purpose).map
        (fun v => v.filter.activeClauses (.join v.traversal.id)) =
          (c.visits purpose).map fun _ => ⟨none, none⟩ :=
      List.map_congr_left fun v hv => Filter.activeClauses_of_consulted (hvisits v hv) _
    rw [joinClause, hclauses]
    simp [Predicate.all?, Predicate.any?, Predicate.combine?]
  rw [plan, hroot, hjoin]
  rfl

/-- A condition compiles as it does without its skipped criteria.

1. The plans are the same but for the number of skipped criteria, which is zero once they are
   left out; and if one of the two is refused, so is the other, with the same error.
2. The number of a plan is how many are left out of the criteria that it depends on.
3. These are the criteria of the documents, their alternatives, and those of each join with
   their alternatives.
4. If all of them are skipped, there is no restriction, whatever the joins are. -/
theorem compile_dropSkipped (c : Condition) (purpose : Purpose) :
    c.dropSkipped.compile purpose =
      (c.compile purpose).map (fun p => { p with skipped := 0 }) ∧
    (∀ p, c.compile purpose = .ok p →
      p.skipped + c.dropSkipped.consulted.length = c.consulted.length) ∧
    (∀ c : Condition, c.consulted = c.filter.criteria ++ c.filter.alternatives ++
      (Join.locatedAll [] c.joins).flatMap fun l =>
        l.join.filter.criteria ++ l.join.filter.alternatives) ∧
    ((∀ k ∈ c.consulted, k.isSkipped = true) → c.compile purpose = .ok {
      predicate := .always
      traversals := (c.visits purpose).map (·.traversal)
      distinct := c.distinct
      skipped := c.consulted.length }) := by
  refine ⟨?_, fun p h => ?_, consulted_eq_located, fun h => ?_⟩
  · rw [compile_eq, compile_eq, consulted_dropSkipped, checkActives_takingPart, plan_dropSkipped]
    cases checkActives c.consulted <;> rfl
  · obtain ⟨-, rfl⟩ := compile_eq_ok_iff.mp h
    rw [consulted_dropSkipped]
    exact countP_isSkipped_add_length c.consulted
  · have hnone : c.dropSkipped.consulted = [] := by
      rw [consulted_dropSkipped]
      exact List.filter_eq_nil_iff.mpr fun k hk => by rw [h k hk]; decide
    -- the condition has the predicate of the one that is left, which has no criteria
    have hpredicate : (c.plan purpose).predicate = .always := by
      rw [← predicate_plan_of_consulted_eq_nil hnone purpose, plan_dropSkipped]
    rw [compile_eq_ok_of_accepted (fun k hk => .inl (h k hk)) purpose, ← hpredicate,
      ← List.countP_eq_length.mpr h]
    rfl

/-- Posts that may be published, of a title or a topic that is not given, with comments of which
neither the age nor the author is given. -/
def undemanding : Condition where
  filter :=
    { criteria := [⟨"title", .null, .like⟩]
      orGroup := some { criteria := [⟨"topic", .null, .equals⟩] } }
  joins :=
    [{ key := "comments", kind := .inner,
       filter := { criteria := [⟨"age", .null, .between⟩] },
       children := [{ key := "author", kind := .left,
                      filter := { orGroup := some { criteria := [⟨"name", .null, .isIn⟩] } } }] }]

/-- Four criteria are skipped, so every post with a comment is selected. -/
theorem compile_dropSkipped_undemanding : ∃ p, undemanding.compile .number = .ok p ∧
    p.predicate = .always ∧ p.skipped = 4 ∧ p.traversals.length = 2 ∧
    undemanding.dropSkipped.compile .number = .ok { p with skipped := 0 } := by
  obtain ⟨hplan, -, -, hskipped⟩ := compile_dropSkipped undemanding .number
  have hall : ∀ k ∈ undemanding.consulted, k.isSkipped = true := by decide
  have hcompile := hskipped hall
  refine ⟨_, hcompile, rfl, rfl, rfl, ?_⟩
  rw [hplan, hcompile]
  rfl

end Condition

end Criteria
