import Criteria.Proofs.Condition.Joins
import Criteria.Proofs.Plan.Alike

/-!
# Empty filters do not count

A join with an empty filter is checked, written and visited as one with the default filter is,
whatever empty groups of alternatives the empty filter holds. So a condition whose empty filters
have been settled has the same document and the same plans.

## Main statements

- `Condition.check_settle`, `Condition.toJson_settle`: the same criteria are checked, and the
  same document is written
- `Condition.compile_settle`: the same plans
-/

namespace Criteria

namespace Filter

/-- An empty filter has no criteria at any depth. -/
theorem check_of_isEmpty {f : Filter} (h : f.isEmpty = true) : f.check = .ok () := by
  match f with
  | ⟨criteria, none⟩ =>
    rw [isEmpty, List.isEmpty_iff] at h
    rw [h]
    rfl
  | ⟨criteria, some group⟩ =>
    rw [isEmpty, Bool.and_eq_true, List.isEmpty_iff] at h
    rw [h.1, check, check_of_isEmpty h.2]
    rfl

theorem criteria_of_isEmpty {f : Filter} (h : f.isEmpty = true) : f.criteria = [] := by
  match f with
  | ⟨criteria, none⟩ => exact List.isEmpty_iff.mp h
  | ⟨criteria, some group⟩ =>
    rw [isEmpty, Bool.and_eq_true] at h
    exact List.isEmpty_iff.mp h.1

theorem alternatives_of_isEmpty {f : Filter} (h : f.isEmpty = true) : f.alternatives = [] := by
  match f with
  | ⟨criteria, none⟩ => rfl
  | ⟨criteria, some group⟩ =>
    rw [isEmpty, Bool.and_eq_true] at h
    exact criteria_of_isEmpty h.2

theorem isEmpty_settle (f : Filter) : f.settle.isEmpty = f.isEmpty := by
  unfold settle
  split
  · rename_i h
    rw [h]
    rfl
  · rfl

theorem settle_of_not_isEmpty {f : Filter} (h : f.isEmpty = false) : f.settle = f := by
  rw [settle, h]
  rfl

theorem check_settle (f : Filter) : f.settle.check = f.check := by
  unfold settle
  split
  · rename_i h
    rw [check_of_isEmpty h]
    rfl
  · rfl

theorem criteria_settle (f : Filter) : f.settle.criteria = f.criteria := by
  unfold settle
  split
  · rename_i h
    rw [criteria_of_isEmpty h]
  · rfl

theorem alternatives_settle (f : Filter) : f.settle.alternatives = f.alternatives := by
  unfold settle
  split
  · rename_i h
    rw [alternatives_of_isEmpty h]
    rfl
  · rfl

theorem consulted_settle (f : Filter) : f.settle.consulted = f.consulted := by
  rw [consulted, consulted, criteria_settle, alternatives_settle]

theorem activeClauses_settle (source : Source) (f : Filter) :
    f.settle.activeClauses source = f.activeClauses source := by
  rw [activeClauses, activeClauses, criteria_settle, alternatives_settle]

end Filter

/-- A visit whose filter has been settled. -/
def Visit.settle (v : Visit) : Visit :=
  { v with filter := v.filter.settle }

namespace Join

mutual

theorem check_settle (j : Join) : j.settle.check = j.check := by
  obtain ⟨key, kind, filter, children, fetch⟩ := j
  rw [settle, check, check, filter.check_settle, checkAll_settleAll children]

theorem checkAll_settleAll (joins : List Join) : checkAll (settleAll joins) = checkAll joins := by
  match joins with
  | [] => rfl
  | j :: rest => rw [settleAll, checkAll, checkAll, check_settle j, checkAll_settleAll rest]

end

theorem isEmpty_settleAll (joins : List Join) : (settleAll joins).isEmpty = joins.isEmpty := by
  cases joins <;> rfl

mutual

/-- An empty filter is written as the default filter is: not at all. -/
theorem toJson_settle (j : Join) : j.settle.toJson = j.toJson := by
  obtain ⟨key, kind, filter, children, fetch⟩ := j
  rw [settle, toJson, toJson, filter.isEmpty_settle, isEmpty_settleAll, toItems_settleAll children]
  cases hfilter : filter.isEmpty with
  | true => rfl
  | false => rw [Filter.settle_of_not_isEmpty hfilter]

theorem toItems_settleAll (joins : List Join) : toItems (settleAll joins) = toItems joins := by
  match joins with
  | [] => rfl
  | j :: rest => rw [settleAll, toItems, toItems, toJson_settle j, toItems_settleAll rest]

end

theorem alike_settleAll : ∀ S : List Join, Alike (fun f g => g = f.settle) S (settleAll S)
  | [] => by
    rw [settleAll]
    exact .nil
  | ⟨_, _, _, children, _⟩ :: rest => by
    rw [settleAll, settle]
    exact .cons rfl rfl rfl (alike_settleAll children) (alike_settleAll rest)

end Join

namespace Condition

variable (c : Condition)

theorem check_settle : c.settle.check = c.check := by
  rw [check, check, settle, Join.checkAll_settleAll]

theorem toJson_settle : c.settle.toJson = c.toJson := by
  rw [toJson, toJson, settle, Join.isEmpty_settleAll, Join.toItems_settleAll]

theorem visits_settle (purpose : Purpose) :
    c.settle.visits purpose = (c.visits purpose).map Visit.settle := by
  have hsuppress : c.settle.suppressFetch = c.suppressFetch := rfl
  have hvisits := forall₂_visits (Join.alike_settleAll c.joins) hsuppress purpose
  have heach (v w : Visit) (alike : Visit.Alike (fun f g => g = f.settle) v w) :
      id w = v.settle := by
    obtain ⟨traversal, filter⟩ := w
    obtain ⟨rfl, rfl⟩ := alike
    rfl
  rw [← Visit.map_eq_of_forall₂ heach hvisits, List.map_id]

theorem consulted_settle : c.settle.consulted = c.consulted := by
  have hfilter (v : Visit) : v.settle.filter.consulted = v.filter.consulted :=
    v.filter.consulted_settle
  rw [consulted, consulted, visits_settle, List.flatMap_map]
  simp only [hfilter]
  rfl

/-- Empty filters do not count for plans. -/
theorem plan_settle (purpose : Purpose) : c.settle.plan purpose = c.plan purpose := by
  have hclauses (v : Visit) : v.settle.filter.activeClauses (.join v.settle.traversal.id) =
      v.filter.activeClauses (.join v.traversal.id) :=
    v.filter.activeClauses_settle _
  have hjoins : joinClause (c.settle.visits purpose) = joinClause (c.visits purpose) := by
    simp only [joinClause, visits_settle, List.map_map, Function.comp_def, hclauses]
  have htraversals : (c.settle.visits purpose).map (·.traversal) =
      (c.visits purpose).map (·.traversal) := by
    rw [visits_settle, List.map_map]
    rfl
  rw [plan, plan, hjoins, htraversals, consulted_settle]
  rfl

theorem compile_settle (purpose : Purpose) : c.settle.compile purpose = c.compile purpose := by
  rw [compile_eq, compile_eq, consulted_settle, plan_settle]

end Condition

end Criteria
