import Criteria.Predicate.Basic

/-!
# Predicates as documents

## Main definitions

- `Source.toJson`, `Attribute.toJson`, `Operand.toJson`, `Comparison.toJson`,
  `Predicate.toJson`: the document of each
-/

namespace Criteria

def Source.toJson : Source → Json
  | .root => .text "root"
  | .join id => .ofFields [("join", .ofNat id)]

def Attribute.toJson (a : Attribute) : Json :=
  .ofFields [("source", a.source.toJson), ("path", .text a.path)]

def Operand.toJson : Operand → Json
  | .plain a => .ofFields [("attribute", a.toJson)]
  | .lower a => .ofFields [("lower", a.toJson)]
  | .size a => .ofFields [("size", a.toJson)]

namespace Comparison

/-- The name of a comparison in documents. -/
def name : Comparison → String
  | .equal _ _ => "equal"
  | .notEqual _ _ => "not_equal"
  | .like _ _ => "like"
  | .greaterThan _ _ => "greater_than"
  | .greaterEquals _ _ => "greater_equals"
  | .lessThan _ _ => "less_than"
  | .lessEquals _ _ => "less_equals"
  | .oneOf _ _ => "in"
  | .between _ _ _ => "between"
  | .isNull _ => "is_null"
  | .isNotNull _ => "is_not_null"
  | .isEmpty _ => "is_empty"
  | .isNotEmpty _ => "is_not_empty"

/-- The constants of a comparison, as fields. -/
def constants : Comparison → List (String × Json)
  | .equal _ v | .notEqual _ v | .greaterThan _ v | .greaterEquals _ v | .lessThan _ v
  | .lessEquals _ v => [("value", v.toJson)]
  | .like _ pattern => [("pattern", .text pattern)]
  | .oneOf _ vs => [("values", .array (Value.toItems vs))]
  | .between _ lower upper => [("lower", lower.toJson), ("upper", upper.toJson)]
  | .isNull _ | .isNotNull _ | .isEmpty _ | .isNotEmpty _ => []

def toJson (c : Comparison) : Json :=
  .ofFields ([("op", .text c.name), ("operand", c.operand.toJson)] ++ c.constants)

end Comparison

namespace Predicate

mutual

def toJson : Predicate → Json
  | .always => .text "always"
  | .and members => .ofFields [("and", .array (toItems members))]
  | .or members => .ofFields [("or", .array (toItems members))]
  | .not member => .ofFields [("not", toJson member)]
  | .compare c => .ofFields [("compare", c.toJson)]

def toItems : List Predicate → List Json
  | [] => []
  | member :: rest => toJson member :: toItems rest

end

end Predicate

end Criteria
