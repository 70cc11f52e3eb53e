import Criteria.Event

/-!
# Reports of compilation

Compiling a condition reports each criterion that takes no part, up to the first that is
not well formed, and then the outcome.

## Main definitions

- `skippedBefore`: the skipped criteria before the first that is not well formed
- `Condition.compileEvents`: the events of a compilation
- `Condition.compileReporting`: a compilation with its events
-/

namespace Criteria

/-- The skipped criteria before the first one that takes part and is not well formed. -/
def skippedBefore : List Criterion → List Criterion
  | [] => []
  | c :: rest =>
    if c.isSkipped then c :: skippedBefore rest
    else
      match c.checkActive with
      | .ok () => skippedBefore rest
      | .error _ => []

namespace Condition

/-- The event that ends a compilation. -/
def compileEvent : Except ConditionError Plan → Event
  | .ok p =>
    .compileComplete p.predicate.comparisons.length p.traversals.length p.skipped p.fetches
  | .error e => .compileRejected e

/-- The events of a compilation, in order. -/
def compileEvents (c : Condition) (purpose : Purpose) : List Event :=
  (skippedBefore c.consulted).map (fun k => .parameterSkipped k.path k.operator) ++
    [compileEvent (c.compile purpose)]

/-- The plan of a condition, with the events of its compilation. -/
def compileReporting (c : Condition) (purpose : Purpose) : Reporting ConditionError Plan :=
  ⟨c.compile purpose, c.compileEvents purpose⟩

end Condition

end Criteria
