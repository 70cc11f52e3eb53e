import Criteria.Operator

/-!
# Errors of conditions

## Main definitions

- `ConditionError`: what may be wrong with a condition
- `ConditionError.code`, `ConditionError.message`: the stable code and the wording
-/

namespace Criteria

/-- What may be wrong with a condition. -/
inductive ConditionError where
  /-- A path of which a segment is blank. -/
  | emptySegment (path : String)
  /-- A value that is not of the kind that the operator expects. -/
  | unfitValue (path : String) (operator : Operator) (reason : String)
  /-- A text that is no condition. -/
  | unreadable (reason : String)
deriving DecidableEq, Repr

namespace ConditionError

def code : ConditionError → String
  | .emptySegment _ => "SPEC_INVALID_PATH"
  | .unfitValue _ _ _ => "SPEC_INVALID_VALUE"
  | .unreadable _ => "SPEC_INVALID_CONDITION"

def message : ConditionError → String
  | .emptySegment path => s!"Path '{path}' has an empty segment"
  | .unfitValue path operator reason =>
    s!"Invalid comparison value for {operator.name} on '{path}': {reason}"
  | .unreadable reason => reason

/-- Code and message together. -/
def display (e : ConditionError) : String :=
  s!"{e.code}: {e.message}"

/-- The path at fault. -/
def path? : ConditionError → Option String
  | .emptySegment path => some path
  | .unfitValue path _ _ => some path
  | .unreadable _ => none

/-- The operator at fault. -/
def operator? : ConditionError → Option Operator
  | .unfitValue _ operator _ => some operator
  | _ => none

/-- The error of a name that no operator has. -/
def unknownOperator (name : String) : ConditionError :=
  .unreadable s!"Unknown operator: {name}"

end ConditionError

end Criteria
