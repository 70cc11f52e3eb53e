import Criteria.Path
import Criteria.Value

/-!
# Predicates

A predicate is a restriction on a document and on the rows that its joins are bound to: a
tree of connectives over comparisons.

## Main definitions

- `Source`, `Attribute`, `Operand`: what a comparison looks at
- `Comparison`, `Predicate`: comparisons and trees of them
- `Predicate.all?`, `Predicate.any?`: conjunction and disjunction without idle connectives
- `Predicate.comparisons`: the comparisons of a tree, from left to right
-/

namespace Criteria

/-- Where an attribute path starts: at the document or at the row of a join. -/
inductive Source where
  | root
  | join (id : Nat)
deriving DecidableEq, Repr

/-- A path from a source. -/
structure Attribute where
  source : Source
  path : String
deriving DecidableEq, Repr

def Attribute.segments (a : Attribute) : List String :=
  Path.parts a.path

/-- The left-hand side of a comparison. -/
inductive Operand where
  /-- The value of an attribute. -/
  | plain (a : Attribute)
  /-- The value of an attribute, in lower case if it is text. -/
  | lower (a : Attribute)
  /-- The number of elements of a collection. -/
  | size (a : Attribute)
deriving DecidableEq, Repr

/-- The attribute that an operand looks at. -/
def Operand.target : Operand → Attribute
  | .plain a | .lower a | .size a => a

/-- A comparison of an operand with constants. -/
inductive Comparison where
  | equal (operand : Operand) (value : Value)
  | notEqual (operand : Operand) (value : Value)
  /-- The text form fits a pattern, in which `%` stands for any run of characters and `_`
  for any one character. -/
  | like (operand : Operand) (pattern : String)
  | greaterThan (operand : Operand) (value : Value)
  | greaterEquals (operand : Operand) (value : Value)
  | lessThan (operand : Operand) (value : Value)
  | lessEquals (operand : Operand) (value : Value)
  | oneOf (operand : Operand) (values : List Value)
  /-- Both bounds belong to the range. -/
  | between (operand : Operand) (lower upper : Value)
  | isNull (operand : Operand)
  | isNotNull (operand : Operand)
  | isEmpty (operand : Operand)
  | isNotEmpty (operand : Operand)
deriving Repr

/-- The left-hand side. -/
def Comparison.operand : Comparison → Operand
  | .equal o _ | .notEqual o _ | .like o _ | .greaterThan o _ | .greaterEquals o _
  | .lessThan o _ | .lessEquals o _ | .oneOf o _ | .between o _ _ | .isNull o | .isNotNull o
  | .isEmpty o | .isNotEmpty o => o

/-- A restriction. -/
inductive Predicate where
  /-- No restriction. -/
  | always
  | and (members : List Predicate)
  | or (members : List Predicate)
  | not (member : Predicate)
  | compare (comparison : Comparison)
deriving Repr, Inhabited

namespace Predicate

/-- A connective over members: nothing for no member, and a single member by itself. -/
def combine? (connective : List Predicate → Predicate) : List Predicate → Option Predicate
  | [] => none
  | [member] => some member
  | members => some (connective members)

/-- The conjunction of the members. -/
def all? : List Predicate → Option Predicate :=
  combine? .and

/-- The disjunction of the members. -/
def any? : List Predicate → Option Predicate :=
  combine? .or

def isAlways : Predicate → Bool
  | .always => true
  | _ => false

mutual

/-- The comparisons of a predicate, from left to right. -/
def comparisons : Predicate → List Comparison
  | .always => []
  | .and members => comparisonsOf members
  | .or members => comparisonsOf members
  | .not member => comparisons member
  | .compare c => [c]

def comparisonsOf : List Predicate → List Comparison
  | [] => []
  | member :: rest => comparisons member ++ comparisonsOf rest

end

end Predicate

end Criteria
