import Mathlib.Data.List.Forall2
import Criteria.Proofs.Plan.WellFormed

/-!
# Joins that differ in their filters only

A plan takes its traversals from the keys and kinds of joins, and its predicate from the clauses
of their filters. So conditions with the same joins, but for the filters, have the same
traversals, and the same plan if the clauses are the same as well.

## Main definitions

- `Join.Alike`: siblings that differ in their filters only
- `Join.mapFilters`: a join with other filters

## Main statements

- `Condition.forall₂_visits`: such joins are visited in the same way
- `Condition.plan_eq_of_clauses`: filters with the same clauses make the same plan
-/

namespace Criteria

variable {R : Filter → Filter → Prop}

/-- The same traversal, with filters that are related. -/
structure Visit.Alike (R : Filter → Filter → Prop) (v w : Visit) : Prop where
  traversal : w.traversal = v.traversal
  filter : R v.filter w.filter

namespace Join

/-- Siblings, and joins below them, that differ in their filters only, which are related. -/
inductive Alike (R : Filter → Filter → Prop) : List Join → List Join → Prop
  | nil : Alike R [] []
  | cons {j k : Join} {S T : List Join} (identity : k.identity = j.identity)
    (fetch : k.fetch = j.fetch) (filter : R j.filter k.filter)
    (children : Alike R j.children k.children) (others : Alike R S T) :
    Alike R (j :: S) (k :: T)

mutual

/-- The join with all filters of its tree replaced. -/
def mapFilters (f : Filter → Filter) : Join → Join
  | ⟨key, kind, filter, children, fetch⟩ => ⟨key, kind, f filter, mapFiltersAll f children, fetch⟩

def mapFiltersAll (f : Filter → Filter) : List Join → List Join
  | [] => []
  | j :: rest => mapFilters f j :: mapFiltersAll f rest

end

theorem alike_mapFiltersAll (f : Filter → Filter) :
    ∀ S : List Join, Alike (fun g h => h = f g) S (mapFiltersAll f S)
  | [] => by
    rw [mapFiltersAll]
    exact .nil
  | ⟨_, _, _, children, _⟩ :: rest => by
    rw [mapFiltersAll, mapFilters]
    exact .cons rfl rfl rfl (alike_mapFiltersAll f children) (alike_mapFiltersAll f rest)

theorem Alike.refl (hR : ∀ f, R f f) : ∀ S : List Join, Alike R S S
  | [] => .nil
  | ⟨_, _, _, children, _⟩ :: rest => .cons rfl rfl (hR _) (refl hR children) (refl hR rest)

theorem Alike.mono {Q : Filter → Filter → Prop} {S T : List Join} (h : Alike R S T)
    (hRQ : ∀ f g, R f g → Q f g) : Alike Q S T := by
  induction h with
  | nil => exact .nil
  | cons identity fetch filter _ _ below after =>
    exact .cons identity fetch (hRQ _ _ filter) below after

private theorem forall₂_visits_of_children {j k : Join} (identity : k.identity = j.identity)
    (filter : R j.filter k.filter) {mode : TraversalMode} {parent : Option Nat} {next : Nat}
    (children : List.Forall₂ (Visit.Alike R) (visitsOf mode (some next) (next + 1) j.children)
      (visitsOf mode (some next) (next + 1) k.children)) :
    List.Forall₂ (Visit.Alike R) (visits mode parent next j) (visits mode parent next k) := by
  obtain ⟨key, kind, f, below, fetch⟩ := j
  obtain ⟨key', kind', f', below', fetch'⟩ := k
  obtain ⟨rfl, rfl⟩ := JoinIdentity.mk.inj identity
  rw [visits, visits]
  exact .cons ⟨rfl, filter⟩ children

theorem Alike.forall₂_visitsOf {S T : List Join} (h : Alike R S T) (mode : TraversalMode)
    (parent : Option Nat) (next : Nat) :
    List.Forall₂ (Visit.Alike R) (visitsOf mode parent next S) (visitsOf mode parent next T) := by
  induction h generalizing parent next with
  | nil => exact .nil
  | @cons j k S T identity fetch filter _ _ below after =>
    have hhere : List.Forall₂ (Visit.Alike R) (visits mode parent next j)
        (visits mode parent next k) :=
      forall₂_visits_of_children identity filter (below (some next) (next + 1))
    simp only [visitsOf, hhere.length_eq]
    exact List.rel_append hhere (after parent _)

/-- At the top, a join decides on the mode of its tree, which is not a matter of filters. -/
theorem Alike.forall₂_topVisits {S T : List Join} (h : Alike R S T) (mayFetch : Bool)
    (next : Nat) :
    List.Forall₂ (Visit.Alike R) (topVisits mayFetch next S) (topVisits mayFetch next T) := by
  induction h generalizing next with
  | nil => exact .nil
  | @cons j k S T identity fetch filter children _ _ after =>
    have hmode : k.mode mayFetch = j.mode mayFetch := by rw [mode, mode, fetch]
    have hhere : List.Forall₂ (Visit.Alike R) (visits (j.mode mayFetch) none next j)
        (visits (j.mode mayFetch) none next k) :=
      forall₂_visits_of_children identity filter (children.forall₂_visitsOf _ _ _)
    simp only [topVisits, hmode, hhere.length_eq]
    exact List.rel_append hhere (after _)

end Join

namespace Visit

variable {vs ws : List Visit}

/-- What can be told of a visit from one that is alike can be told of all visits. -/
theorem map_eq_of_forall₂ {β : Type} {f g : Visit → β}
    (hfg : ∀ v w, Visit.Alike R v w → g w = f v) (h : List.Forall₂ (Visit.Alike R) vs ws) :
    ws.map g = vs.map f := by
  induction h with
  | nil => rfl
  | cons alike _ ih => rw [List.map_cons, List.map_cons, hfg _ _ alike, ih]

end Visit

namespace Condition

variable {c c' : Condition}

theorem forall₂_visits (hjoins : Join.Alike R c.joins c'.joins)
    (hsuppress : c'.suppressFetch = c.suppressFetch) (purpose : Purpose) :
    List.Forall₂ (Visit.Alike R) (c.visits purpose) (c'.visits purpose) := by
  have hfetch : c'.mayFetch purpose = c.mayFetch purpose := by rw [mayFetch, mayFetch, hsuppress]
  rw [visits, visits, hfetch]
  exact hjoins.forall₂_topVisits _ 0

theorem traversals_plan_eq (hjoins : Join.Alike R c.joins c'.joins)
    (hsuppress : c'.suppressFetch = c.suppressFetch) (purpose : Purpose) :
    (c'.plan purpose).traversals = (c.plan purpose).traversals :=
  Visit.map_eq_of_forall₂ (fun _ _ alike => alike.traversal)
    (forall₂_visits hjoins hsuppress purpose)

/-- Filters with the same clauses on every source make the same plan, but for the number of
criteria that take no part. -/
theorem plan_eq_of_clauses
    (hfilter : c'.filter.activeClauses .root = c.filter.activeClauses .root)
    (hjoins : Join.Alike (fun f g => ∀ source, g.activeClauses source = f.activeClauses source)
      c.joins c'.joins)
    (hdistinct : c'.distinct = c.distinct) (hsuppress : c'.suppressFetch = c.suppressFetch)
    (purpose : Purpose) :
    c'.plan purpose =
      { c.plan purpose with skipped := c'.consulted.countP Criterion.isSkipped } := by
  have hroot : c'.rootClause = c.rootClause := by rw [rootClause, rootClause, hfilter]
  have hclauses : (c'.visits purpose).map
      (fun v => v.filter.activeClauses (.join v.traversal.id)) =
        (c.visits purpose).map fun v => v.filter.activeClauses (.join v.traversal.id) := by
    refine Visit.map_eq_of_forall₂ (fun v w alike => ?_) (forall₂_visits hjoins hsuppress purpose)
    rw [alike.traversal, alike.filter]
  have hjoin : joinClause (c'.visits purpose) = joinClause (c.visits purpose) := by
    rw [joinClause, joinClause, hclauses]
  have htraversals := traversals_plan_eq hjoins hsuppress purpose
  simp only [plan] at htraversals ⊢
  rw [hroot, hjoin, htraversals, hdistinct]

end Condition

end Criteria
