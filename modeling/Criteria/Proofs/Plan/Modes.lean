import Criteria.Proofs.Plan.WellFormed
import Criteria.Selection

/-!
# Loading changes no row

Whether rows are loaded is decided by the purpose of a query, by the flag of its condition and
by the flags of its joins. All of them end up in the modes of the traversals, and no selection
looks at a mode.

## Main definitions

- `Plan.unloaded`: a plan that loads no rows
- `Condition.eraseFetch`: a condition without its choice of what to load

## Main statements

- `Condition.compile_unloaded_eq`: conditions that differ in what they load have plans that
  differ in modes only
- `Plan.select_unloaded`: a plan selects the same documents if it loads no rows
-/

namespace Criteria

/-- The plan with the same traversals, none of which loads its rows. -/
def Plan.unloaded (p : Plan) : Plan :=
  { p with traversals := p.traversals.map Traversal.unloaded }

namespace Join

mutual

/-- The join with all fetch flags set, at every depth. -/
def eraseFetch : Join → Join
  | ⟨key, kind, filter, children, _⟩ => ⟨key, kind, filter, eraseFetchAll children, true⟩

def eraseFetchAll : List Join → List Join
  | [] => []
  | j :: rest => eraseFetch j :: eraseFetchAll rest

end

mutual

theorem visits_eraseFetch (mode : TraversalMode) (parent : Option Nat) (next : Nat) (j : Join) :
    visits mode parent next j.eraseFetch = visits mode parent next j := by
  obtain ⟨key, kind, filter, children, fetch⟩ := j
  rw [eraseFetch, visits, visits, visitsOf_eraseFetchAll mode (some next) (next + 1) children]

theorem visitsOf_eraseFetchAll (mode : TraversalMode) (parent : Option Nat) (next : Nat)
    (joins : List Join) :
    visitsOf mode parent next (eraseFetchAll joins) = visitsOf mode parent next joins := by
  cases joins with
  | nil => rfl
  | cons j rest =>
    simp only [eraseFetchAll, visitsOf]
    rw [visits_eraseFetch mode parent next j, visitsOf_eraseFetchAll mode parent _ rest]

end

end Join

namespace Condition

/-- The condition that loads the rows of all joins. Conditions that differ only in what they
load have this one in common. -/
def eraseFetch (c : Condition) : Condition :=
  { c with joins := Join.eraseFetchAll c.joins, suppressFetch := false }

variable {c c' : Condition}

theorem eraseFetch_eq_iff : c'.eraseFetch = c.eraseFetch ↔
    c'.filter = c.filter ∧ Join.eraseFetchAll c'.joins = Join.eraseFetchAll c.joins ∧
      c'.distinct = c.distinct := by
  simp [eraseFetch]

theorem map_unloaded_visits_eq (h : c'.eraseFetch = c.eraseFetch) (purpose purpose' : Purpose) :
    (c'.visits purpose').map Visit.unloaded = (c.visits purpose).map Visit.unloaded := by
  obtain ⟨-, hjoins, -⟩ := eraseFetch_eq_iff.mp h
  -- both are the visits of the joins with all flags set
  rw [map_unloaded_visits, map_unloaded_visits, ← Join.visitsOf_eraseFetchAll, hjoins,
    Join.visitsOf_eraseFetchAll]

theorem consulted_congr (h : c'.eraseFetch = c.eraseFetch) : c'.consulted = c.consulted := by
  obtain ⟨hfilter, -, -⟩ := eraseFetch_eq_iff.mp h
  have hvisits := congrArg (List.flatMap fun v : Visit => v.filter.consulted)
    (map_unloaded_visits_eq h .documents .documents)
  rw [List.flatMap_map, List.flatMap_map] at hvisits
  rw [consulted, consulted, hfilter]
  exact congrArg _ hvisits

/-- The clauses of the joins do not depend on modes. -/
theorem joinClause_map_unloaded (visits : List Visit) :
    joinClause (visits.map Visit.unloaded) = joinClause visits := by
  unfold joinClause
  rw [List.map_map]
  rfl

theorem unloaded_plan_eq (h : c'.eraseFetch = c.eraseFetch) (purpose purpose' : Purpose) :
    (c'.plan purpose').unloaded = (c.plan purpose).unloaded := by
  obtain ⟨hfilter, -, hdistinct⟩ := eraseFetch_eq_iff.mp h
  have hvisits := map_unloaded_visits_eq h purpose purpose'
  have htraversals : ((c'.visits purpose').map (·.traversal)).map Traversal.unloaded =
      ((c.visits purpose).map (·.traversal)).map Traversal.unloaded := by
    have htraversals := congrArg (List.map fun v : Visit => v.traversal) hvisits
    rw [List.map_map, List.map_map] at htraversals
    rw [List.map_map, List.map_map]
    exact htraversals
  -- a clause looks at the filter and the number of a visit, never at its mode
  have hroot : c'.rootClause = c.rootClause := by rw [rootClause, rootClause, hfilter]
  have hjoin : joinClause (c'.visits purpose') = joinClause (c.visits purpose) := by
    rw [← joinClause_map_unloaded, hvisits, joinClause_map_unloaded]
  simp only [plan, Plan.unloaded, htraversals, hroot, hjoin, hdistinct, consulted_congr h]

/-- Conditions that differ only in what they load compile to plans that differ in modes only,
or fail in the same way. -/
theorem compile_unloaded_eq (h : c'.eraseFetch = c.eraseFetch) (purpose purpose' : Purpose) :
    (c'.compile purpose').map Plan.unloaded = (c.compile purpose).map Plan.unloaded := by
  rw [compile_eq, compile_eq, consulted_congr h]
  cases checkActives c.consulted with
  | error e => rfl
  | ok u => exact congrArg Except.ok (unloaded_plan_eq h purpose purpose')

end Condition

section Selection

theorem Traversal.extendAll_unloaded (t : Traversal) (limit count : Nat) (document : Json)
    (bindings : List Binding) :
    t.unloaded.extendAll limit document count bindings =
      t.extendAll limit document count bindings := by
  induction bindings generalizing count with
  | nil => rfl
  | cons binding rest ih =>
    have hrows : t.unloaded.rows document binding = t.rows document binding := rfl
    have hextensions : t.unloaded.extensions document binding = t.extensions document binding :=
      rfl
    simp only [Traversal.extendAll, hrows, hextensions, ih]

theorem extendAlong_map_unloaded (limit : Nat) (document : Json) (ts : List Traversal)
    (bindings : List Binding) :
    extendAlong limit document (ts.map Traversal.unloaded) bindings =
      extendAlong limit document ts bindings := by
  induction ts generalizing bindings with
  | nil => rfl
  | cons t rest ih => simp only [List.map_cons, extendAlong, t.extendAll_unloaded, ih]

namespace Plan

theorem satisfied_unloaded (engine : PatternEngine) (p : Plan) (limit : Nat) (document : Json) :
    p.unloaded.satisfied engine limit document = p.satisfied engine limit document := by
  unfold satisfied Json.bindings?
  rw [unloaded, extendAlong_map_unloaded]

/-- A plan selects the same documents, and looks at as many bindings, if it loads no rows. -/
theorem select_unloaded (p : Plan) (limit : Nat) (documents : List Json) :
    p.unloaded.select limit documents = p.select limit documents := by
  have hafter (found : List Json) (scanned evaluated : Nat) :
      p.unloaded.selectAfter .standard (max limit 1) found scanned evaluated documents =
        p.selectAfter .standard (max limit 1) found scanned evaluated documents := by
    induction documents generalizing found scanned evaluated with
    | nil => rfl
    | cons document rest ih =>
      have hcopies (n : Nat) : p.unloaded.copies n = p.copies n := rfl
      simp only [selectAfter, satisfied_unloaded, hcopies, ih]
  rw [select, select, selectWith, selectWith, hafter]

end Plan

end Selection

end Criteria
