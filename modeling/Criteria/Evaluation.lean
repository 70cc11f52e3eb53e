import Criteria.Document.Order
import Criteria.Predicate.Basic
import Criteria.Text.Like
import Criteria.Text.Lowercase
import Criteria.Truth

/-!
# Evaluation

The truth of a predicate on a document under a binding of its joins.

## Main definitions

- `Binding`: the row of each join, if it has one
- `Scope`: what attributes are looked up in
- `Scope.operand?`: the value of an operand
- `Comparison.eval`, `Predicate.eval`: truth

## Design notes

A value that is missing or null makes a comparison unknown. Tests for null and for
emptiness are the exception and never unknown. A connective looks at its members from left to
right, and no further than to the one that decides it.
-/

namespace Criteria

/-- The row of each join of a plan, in the order of the traversals. -/
abbrev Binding := List (Option Json)

/-- A document and the rows that its joins are bound to. -/
structure Scope where
  document : Json
  binding : Binding

namespace Scope

/-- What a path starts from. -/
def base? (s : Scope) : Source → Option Json
  | .root => some s.document
  | .join id => s.binding[id]?.join

/-- The value of an attribute; null counts as missing. -/
def attribute? (s : Scope) (a : Attribute) : Option Json :=
  match (s.base? a.source).bind (·.resolve? a.path) with
  | some .null => none
  | value => value

/-- Text in lower case, and any other value as it is. -/
def lowerText : Json → Json
  | .text t => .text (Text.lower t)
  | j => j

/-- The number of elements of a collection; what is missing has none. -/
def size? : Option Json → Option Json
  | none => some (.ofNat 0)
  | some (.array items) => some (.ofNat items.length)
  | some (.object fields) => some (.ofNat fields.length)
  | some _ => none

/-- The value of an operand. -/
def operand? (s : Scope) : Operand → Option Json
  | .plain a => s.attribute? a
  | .lower a => (s.attribute? a).map lowerText
  | .size a => size? (s.attribute? a)

end Scope

/-- Equality with a constant, unknown if either side is null. -/
def truthOfEqual (actual : Option Json) (expected : Json) : Truth :=
  match actual with
  | none => .unknown
  | some actual =>
    if expected.isNull then .unknown
    else .ofBool (actual.compare? expected == some .eq)

/-- An order relation with a constant, unknown between incomparable values. -/
def truthOfOrder (actual : Option Json) (bound : Json) (accept : Ordering → Bool) : Truth :=
  match actual.bind (·.compare? bound) with
  | none => .unknown
  | some order => .ofBool (accept order)

/-- Nothing, an empty array or an empty object. -/
def isEmptyValue : Option Json → Bool
  | none => true
  | some (.array items) => items.isEmpty
  | some (.object fields) => fields.isEmpty
  | some _ => false

/-- The text form of a value fits a pattern. -/
def truthOfLike (actual : Option Json) (pattern : String) : Truth :=
  match actual.bind (·.likeText?) with
  | none => .unknown
  | some text => .ofBool (Text.isLike text pattern)

/-- The truth of a comparison. -/
def Comparison.eval (s : Scope) : Comparison → Truth
  | .equal o v => truthOfEqual (s.operand? o) v.toJson
  | .notEqual o v => (truthOfEqual (s.operand? o) v.toJson).not
  | .like o pattern => truthOfLike (s.operand? o) pattern
  | .greaterThan o v => truthOfOrder (s.operand? o) v.toJson (· == .gt)
  | .greaterEquals o v => truthOfOrder (s.operand? o) v.toJson (· != .lt)
  | .lessThan o v => truthOfOrder (s.operand? o) v.toJson (· == .lt)
  | .lessEquals o v => truthOfOrder (s.operand? o) v.toJson (· != .gt)
  | .oneOf o vs => Truth.any (vs.map fun v => truthOfEqual (s.operand? o) v.toJson)
  | .between o lower upper =>
    (truthOfOrder (s.operand? o) lower.toJson (· != .lt)).and
      (truthOfOrder (s.operand? o) upper.toJson (· != .gt))
  | .isNull o => .ofBool (s.operand? o).isNone
  | .isNotNull o => .ofBool (s.operand? o).isSome
  | .isEmpty o => .ofBool (isEmptyValue (s.operand? o))
  | .isNotEmpty o => .ofBool (!isEmptyValue (s.operand? o))

namespace Predicate

mutual

/-- The truth of a predicate. -/
def eval (s : Scope) : Predicate → Truth
  | .always => .true
  | .and members => evalAll s .true members
  | .or members => evalAny s .false members
  | .not member => (eval s member).not
  | .compare c => c.eval s

/-- The conjunction of a truth with those of members, which ends at the first that makes it
false. -/
def evalAll (s : Scope) (truth : Truth) : List Predicate → Truth
  | [] => truth
  | member :: rest =>
    match truth.and (eval s member) with
    | .false => .false
    | truth => evalAll s truth rest

/-- The disjunction of a truth with those of members, which ends at the first that makes it
true. -/
def evalAny (s : Scope) (truth : Truth) : List Predicate → Truth
  | [] => truth
  | member :: rest =>
    match truth.or (eval s member) with
    | .true => .true
    | truth => evalAny s truth rest

end

theorem evalAll_eq (s : Scope) (truth : Truth) (members : List Predicate) :
    evalAll s truth members = truth.and (Truth.all (members.map (eval s))) := by
  induction members generalizing truth with
  | nil => simp [evalAll]
  | cons member rest ih =>
    rw [evalAll, List.map_cons, Truth.all_cons, ← Truth.and_assoc]
    split
    · rename_i h
      rw [h, Truth.false_and]
    · exact ih _

theorem evalAny_eq (s : Scope) (truth : Truth) (members : List Predicate) :
    evalAny s truth members = truth.or (Truth.any (members.map (eval s))) := by
  induction members generalizing truth with
  | nil => simp [evalAny]
  | cons member rest ih =>
    rw [evalAny, List.map_cons, Truth.any_cons, ← Truth.or_assoc]
    split
    · rename_i h
      rw [h, Truth.true_or]
    · exact ih _

@[simp] theorem eval_always (s : Scope) : eval s .always = .true := by
  rw [eval]

/-- Ending early does not change a conjunction. -/
@[simp] theorem eval_and (s : Scope) (members : List Predicate) :
    eval s (.and members) = Truth.all (members.map (eval s)) := by
  rw [eval, evalAll_eq, Truth.true_and]

/-- Ending early does not change a disjunction. -/
@[simp] theorem eval_or (s : Scope) (members : List Predicate) :
    eval s (.or members) = Truth.any (members.map (eval s)) := by
  rw [eval, evalAny_eq, Truth.false_or]

@[simp] theorem eval_not (s : Scope) (member : Predicate) :
    eval s (.not member) = (eval s member).not := by
  rw [eval]

@[simp] theorem eval_compare (s : Scope) (c : Comparison) : eval s (.compare c) = c.eval s := by
  rw [eval]

end Predicate

end Criteria
