import Criteria.Path
import Criteria.Value

/-!
# Criteria

One comparison of an attribute with a value.

## Main definitions

- `Criterion`: a path, a value and an operator
- `Criterion.isSkipped`: the criterion takes no part in a query
- `Criterion.check`, `Criterion.checked`: whether a criterion is well formed
- `Criterion.toJson`, `Criterion.reader`: criteria as documents
-/

namespace Criteria

/-- The attribute at a path compared with a value. -/
structure Criterion where
  path : String
  value : Value
  operator : Operator
deriving Repr, Inhabited

namespace Criterion

/-- A null value with an operator that needs one: the criterion takes no part. -/
def isSkipped (c : Criterion) : Bool :=
  c.value.isNull && !c.operator.isNullness

/-- The value is of the kind that the operator expects. -/
def checkValue (c : Criterion) : Except ConditionError Unit :=
  match c.value.check c.operator.expects with
  | .ok () => .ok ()
  | .error unfit => .error (.unfitValue c.path c.operator unfit.reason)

/-- The path has no blank segment, and the value is of the expected kind unless the
criterion is skipped. -/
def check (c : Criterion) : Except ConditionError Unit := do
  let _ ← Path.segments c.path
  if c.isSkipped then return () else c.checkValue

/-- The criterion with the given parts, if it is well formed. -/
def checked (path : String) (value : Value) (operator : Operator) :
    Except ConditionError Criterion := do
  let c : Criterion := ⟨path, value, operator⟩
  c.check
  return c

/-- The criterion as a document. -/
def toJson (c : Criterion) : Json :=
  .ofFields [("path", .text c.path), ("value", c.value.toJson), ("operator", .text c.operator.name)]

/-- The fields of a criterion that have been read. -/
structure Draft where
  path : Option String := none
  value : Option Value := none
  operator : Option Operator := none

/-- The spellings of the fields, in the declared order. -/
def fieldNames : List (List String) :=
  [["path", "key"], ["value"], ["operator"]]

/-- Reads one field into a draft. -/
def readField {ω : Type} : Nat → Reader ω (Draft → Draft)
  | 0, depth, tree => do
    let path ← Reader.text depth tree
    return fun d => { d with path }
  | 1, depth, tree => do
    let value ← Value.reader depth tree
    return fun d => { d with value }
  | _, depth, tree => do
    let operator ← Reader.case Operator.ofName? depth tree
    return fun d => { d with operator }

/-- Reads a criterion; without a value it has the null value. -/
def reader {ω : Type} : Reader ω Criterion := fun depth tree => do
  let draft ← Reader.record fieldNames readField {} depth tree
  let path ← Reader.require "path" draft.path
  let operator ← Reader.require "operator" draft.operator
  return ⟨path, draft.value.getD .null, operator⟩

end Criterion

end Criteria
