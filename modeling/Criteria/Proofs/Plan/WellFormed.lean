import Criteria.Proofs.Plan.Visits

/-!
# Plans of well-formed conditions

Compiling a condition does two things that can be told apart: it checks the criteria that
take part, in the order in which they are looked at, and it puts the plan together, which
cannot fail. The plan does not depend on the checks.

## Main definitions

- `checkActives`: the criteria that take part are well formed
- `Condition.plan`: the plan of a condition, whether or not it is well formed

## Main statements

- `Condition.compile_eq`: a compilation is the check followed by the plan
- `Condition.compile_eq_ok_iff`: when a compilation succeeds, and with what plan
-/

namespace Criteria

/-- Every criterion that takes part is well formed; the first that is not gives the error. -/
def checkActives (criteria : List Criterion) : Except ConditionError Unit :=
  (criteria.filter fun c => !c.isSkipped).forM Criterion.checkActive

/-- The predicates of the criteria that take part. -/
def activePredicates (source : Source) (criteria : List Criterion) : List Predicate :=
  (criteria.filter fun c => !c.isSkipped).map fun c => c.predicate source

@[simp] theorem checkActives_nil : checkActives [] = .ok () := rfl

theorem checkActives_append (cs ds : List Criterion) :
    checkActives (cs ++ ds) = (checkActives cs).bind fun _ => checkActives ds := by
  simp only [checkActives, List.filter_append]
  exact List.forM_append

private theorem mapM_compile_eq (source : Source) (criteria : List Criterion) :
    criteria.mapM (Criterion.compile source) =
      (criteria.forM Criterion.checkActive).map
        fun _ => criteria.map fun c => c.predicate source := by
  induction criteria with
  | nil => rfl
  | cons c rest ih =>
    rw [List.mapM_cons, ih, List.forM_eq_forM, List.forM_cons, Criterion.compile]
    cases hc : c.checkActive with
    | error e => rfl
    | ok u => cases hrest : forM rest Criterion.checkActive <;> rfl

theorem compileActive_eq (source : Source) (criteria : List Criterion) :
    compileActive source criteria =
      (checkActives criteria).map fun _ => activePredicates source criteria :=
  mapM_compile_eq source _

namespace Filter

/-- The clauses of a filter from the criteria that take part, checked or not. -/
def activeClauses (source : Source) (f : Filter) : Clauses :=
  ⟨Predicate.all? (activePredicates source f.criteria),
    Predicate.any? (activePredicates source f.alternatives)⟩

theorem clauses_eq (source : Source) (f : Filter) :
    f.clauses source = (checkActives f.consulted).map fun _ => f.activeClauses source := by
  rw [clauses, compileActive_eq, compileActive_eq, consulted, checkActives_append]
  cases hc : checkActives f.criteria with
  | error e => rfl
  | ok u => cases ha : checkActives f.alternatives <;> rfl

end Filter

theorem mapM_clauses_eq (visits : List Visit) :
    (visits.mapM fun v => v.filter.clauses (.join v.traversal.id)) =
      (checkActives (visits.flatMap fun v => v.filter.consulted)).map
        fun _ => visits.map fun v => v.filter.activeClauses (.join v.traversal.id) := by
  induction visits with
  | nil => rfl
  | cons v rest ih =>
    rw [List.mapM_cons, ih, Filter.clauses_eq, List.flatMap_cons, checkActives_append]
    cases hv : checkActives v.filter.consulted with
    | error e => rfl
    | ok u =>
      cases hrest : checkActives (rest.flatMap fun v => v.filter.consulted) <;> rfl

namespace Condition

/-- What the filter of the documents requires. -/
def rootClause (c : Condition) : Option Predicate :=
  let root := c.filter.activeClauses .root
  Predicate.all? (root.required.toList ++ root.alternative.toList)

/-- What the filters of the joins require: everything that one of them requires, and one of
the alternatives of all of them. -/
def joinClause (visits : List Visit) : Option Predicate :=
  let joins := visits.map fun v => v.filter.activeClauses (.join v.traversal.id)
  let required := Predicate.all? (joins.filterMap (·.required))
  let alternative := Predicate.any? (joins.filterMap (·.alternative))
  Predicate.all? (required.toList ++ alternative.toList)

/-- The plan of a condition, whether or not its criteria are well formed. -/
def plan (c : Condition) (purpose : Purpose) : Plan where
  predicate :=
    (Predicate.all? (c.rootClause.toList ++
      (joinClause (c.visits purpose)).toList)).getD .always
  traversals := (c.visits purpose).map (·.traversal)
  distinct := c.distinct
  skipped := c.consulted.countP Criterion.isSkipped

/-- The criteria of the joins do not depend on what a query is for. -/
theorem flatMap_consulted_visits (c : Condition) (purpose : Purpose) :
    (c.visits purpose).flatMap (fun v => v.filter.consulted) =
      (Join.locatedAll [] c.joins).flatMap fun l => l.join.filter.consulted := by
  have h := congrArg (List.flatMap Filter.consulted) (c.filter_visits purpose)
  rwa [List.flatMap_map, List.flatMap_map] at h

theorem consulted_eq (c : Condition) (purpose : Purpose) :
    c.consulted =
      c.filter.consulted ++ (c.visits purpose).flatMap fun v => v.filter.consulted := by
  rw [consulted, flatMap_consulted_visits, flatMap_consulted_visits]

/-- A compilation checks the criteria that take part, and then cannot fail. -/
theorem compile_eq (c : Condition) (purpose : Purpose) :
    c.compile purpose = (checkActives c.consulted).map fun _ => c.plan purpose := by
  have hchecks : checkActives c.consulted =
      (checkActives c.filter.consulted).bind fun _ =>
        checkActives ((c.visits purpose).flatMap fun v => v.filter.consulted) := by
    rw [c.consulted_eq purpose, checkActives_append]
  rw [compile, Filter.clauses_eq, mapM_clauses_eq, hchecks]
  cases checkActives c.filter.consulted with
  | error e => rfl
  | ok u =>
    cases checkActives ((c.visits purpose).flatMap fun v => v.filter.consulted) <;> rfl

theorem compile_eq_ok_iff {c : Condition} {purpose : Purpose} {p : Plan} :
    c.compile purpose = .ok p ↔ checkActives c.consulted = .ok () ∧ c.plan purpose = p := by
  rw [compile_eq]
  cases checkActives c.consulted with
  | error e => simp [Except.map]
  | ok u => simp [Except.map]

end Condition

end Criteria
