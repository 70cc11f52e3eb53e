import Criteria.Plan.Basic

/-!
# Explanations

How a condition was understood, or why it was not.

## Main definitions

- `Explanation`: the rendered plan or the error
- `Explanation.ofOutcome`: the explanation of a compilation
- `Explanation.display`, `Explanation.toJson`: its text and its document
-/

namespace Criteria

/-- The outcome of compiling a condition, made readable. -/
inductive Explanation where
  | accepted (predicate : String) (traversals : List String) (distinct : Bool) (skipped : Nat)
  | rejected (code : String) (reason : String)
deriving Repr

namespace Explanation

def ofPlan (p : Plan) : Explanation :=
  .accepted p.predicate.display (p.traversals.map (·.display)) p.distinct p.skipped

def ofError (e : ConditionError) : Explanation :=
  .rejected e.code e.message

/-- The explanation of a compilation. -/
def ofOutcome : Except ConditionError Plan → Explanation
  | .ok p => ofPlan p
  | .error e => ofError e

/-- The lines of an explanation. -/
def lines : Explanation → List String
  | .accepted predicate traversals distinct skipped =>
    ["=== EXPLAIN PLAN ===", "Status: ACCEPTED", s!"Predicate: {predicate}"] ++
    (if traversals.isEmpty then [] else "Traversals:" :: traversals.map (s!"  - {·}")) ++
    [s!"Distinct: {distinct}"] ++
    (if skipped = 0 then [] else [s!"Skipped Parameters: {skipped}"])
  | .rejected code reason =>
    ["=== EXPLAIN PLAN ===", "Status: REJECTED", s!"Error Code: {code}", s!"Reason: {reason}"]

/-- The text of an explanation, each line with its end. -/
def display (e : Explanation) : String :=
  String.join (e.lines.map (· ++ "\n"))

/-- The explanation as a document. -/
def toJson : Explanation → Json
  | .accepted predicate traversals distinct skipped =>
    .ofFields
      [("accepted", .bool true), ("predicate", .text predicate),
       ("traversals", .array (traversals.map .text)), ("distinct", .bool distinct),
       ("skipped_parameters", .ofNat skipped), ("rejection_reason", .null),
       ("rejection_code", .null)]
  | .rejected code reason =>
    .ofFields
      [("accepted", .bool false), ("predicate", .null), ("traversals", .array []),
       ("distinct", .bool false), ("skipped_parameters", .ofNat 0),
       ("rejection_reason", .text reason), ("rejection_code", .text code)]

end Explanation

end Criteria
