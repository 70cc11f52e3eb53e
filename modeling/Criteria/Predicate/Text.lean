import Criteria.Predicate.Basic

/-!
# Predicates as text

## Main definitions

- `Attribute.render`, `Operand.render`, `Comparison.render`, `Predicate.render`: the
  characters of each
- `Predicate.display`: the text of a predicate
-/

namespace Criteria

/-- The name of a join in plans. -/
def joinName (id : Nat) : List Char :=
  'j' :: decimalDigits id

/-- The path of an attribute, after the name of its join if it is one's. -/
def Attribute.render (a : Attribute) : List Char :=
  match a.source with
  | .root => a.path.toList
  | .join id => joinName id ++ '.' :: a.path.toList

def Operand.render : Operand → List Char
  | .plain a => a.render
  | .lower a => "LOWER(".toList ++ a.render ++ [')']
  | .size a => "SIZE(".toList ++ a.render ++ [')']

def Comparison.render : Comparison → List Char
  | .equal o v => o.render ++ " = ".toList ++ v.render
  | .notEqual o v => o.render ++ " <> ".toList ++ v.render
  | .like o pattern => o.render ++ " LIKE ".toList ++ Value.quoted pattern
  | .greaterThan o v => o.render ++ " > ".toList ++ v.render
  | .greaterEquals o v => o.render ++ " >= ".toList ++ v.render
  | .lessThan o v => o.render ++ " < ".toList ++ v.render
  | .lessEquals o v => o.render ++ " <= ".toList ++ v.render
  | .oneOf o vs => o.render ++ " IN ".toList ++ (Value.list vs).render
  | .between o lower upper =>
    o.render ++ " BETWEEN ".toList ++ lower.render ++ " AND ".toList ++ upper.render
  | .isNull o => o.render ++ " IS NULL".toList
  | .isNotNull o => o.render ++ " IS NOT NULL".toList
  | .isEmpty o => o.render ++ " IS EMPTY".toList
  | .isNotEmpty o => o.render ++ " IS NOT EMPTY".toList

namespace Predicate

/-- A member of a connective stands in brackets unless it starts with a word of its own. -/
def bracketed (p : Predicate) (text : List Char) : List Char :=
  match p with
  | .and _ | .or _ | .compare _ => '(' :: (text ++ [')'])
  | _ => text

mutual

/-- The characters of a predicate. -/
def render : Predicate → List Char
  | .always => "TRUE".toList
  | .and members => renderMembers " AND ".toList members
  | .or members => renderMembers " OR ".toList members
  | .not member => "NOT ".toList ++ bracketed member (render member)
  | .compare c => c.render

/-- Members with a connective between them. -/
def renderMembers (connective : List Char) : List Predicate → List Char
  | [] => []
  | [member] => bracketed member (render member)
  | member :: rest =>
    bracketed member (render member) ++ connective ++ renderMembers connective rest

end

/-- The text of a predicate. -/
def display (p : Predicate) : String :=
  String.ofList p.render

end Predicate

/-- The text of a comparison. -/
def Comparison.display (c : Comparison) : String :=
  String.ofList c.render

/-- The text of an attribute. -/
def Attribute.display (a : Attribute) : String :=
  String.ofList a.render

end Criteria
