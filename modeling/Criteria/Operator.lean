/-!
# Operators

The closed set of comparisons that a criterion may ask for.

## Main definitions

- `Operator`, `Operator.all`: the operators, in their order
- `Operator.name`, `Operator.ofName?`, `Operator.ofText?`: their names
- `Operator.isNullness`, `Operator.ignoresCase`: two classes of operators
- `Expected`, `Operator.expects`: the kind of value that an operator compares with
-/

namespace Criteria

/-- A comparison. Operators that end in `Time` order points in time, and those that start
with `size` look at the number of elements of a collection. -/
inductive Operator where
  | equals
  | notEquals
  | like
  | likeIgnoreCase
  | startsWith
  | startsWithIgnoreCase
  | endsWith
  | endsWithIgnoreCase
  | contains
  | containsIgnoreCase
  | notContains
  | notContainsIgnoreCase
  | greaterThan
  | greaterThanTime
  | greaterEquals
  | greaterEqualsTime
  | lessThan
  | lessThanTime
  | lessEquals
  | lessEqualsTime
  | isIn
  | notIn
  | isNull
  | notNull
  | between
  | notBetween
  | isEmpty
  | isNotEmpty
  | sizeEquals
  | sizeGreaterThan
  | sizeLessThan
  | sizeGreaterEquals
  | sizeLessEquals
deriving DecidableEq, Repr, Inhabited

/-- The kind of value that an operator compares with. -/
inductive Expected where
  /-- The value is ignored. -/
  | nothing
  /-- Any value but a list. -/
  | scalar
  /-- Any value but a list, used as text. -/
  | text
  /-- An integer or a floating-point number. -/
  | number
  /-- A number, or the text of a timestamp. -/
  | temporal
  | list
  /-- A list of two values that are neither null nor lists. -/
  | pair
  /-- An integer that is not negative. -/
  | size
deriving DecidableEq, Repr

namespace Operator

/-- Every operator, in order. -/
def all : List Operator :=
  [equals, notEquals, like, likeIgnoreCase, startsWith, startsWithIgnoreCase, endsWith,
    endsWithIgnoreCase, contains, containsIgnoreCase, notContains, notContainsIgnoreCase,
    greaterThan, greaterThanTime, greaterEquals, greaterEqualsTime, lessThan, lessThanTime,
    lessEquals, lessEqualsTime, isIn, notIn, isNull, notNull, between, notBetween, isEmpty,
    isNotEmpty, sizeEquals, sizeGreaterThan, sizeLessThan, sizeGreaterEquals, sizeLessEquals]

/-- The name of an operator in documents and messages. -/
def name : Operator → String
  | equals => "EQUALS"
  | notEquals => "NOT_EQUALS"
  | like => "LIKE"
  | likeIgnoreCase => "LIKE_IGNORE_CASE"
  | startsWith => "STARTS_WITH"
  | startsWithIgnoreCase => "STARTS_WITH_IGNORE_CASE"
  | endsWith => "ENDS_WITH"
  | endsWithIgnoreCase => "ENDS_WITH_IGNORE_CASE"
  | contains => "CONTAINS"
  | containsIgnoreCase => "CONTAINS_IGNORE_CASE"
  | notContains => "NOT_CONTAINS"
  | notContainsIgnoreCase => "NOT_CONTAINS_IGNORE_CASE"
  | greaterThan => "GREATER_THAN"
  | greaterThanTime => "GREATER_THAN_TIME"
  | greaterEquals => "GREATER_EQUALS"
  | greaterEqualsTime => "GREATER_EQUALS_TIME"
  | lessThan => "LESS_THAN"
  | lessThanTime => "LESS_THAN_TIME"
  | lessEquals => "LESS_EQUALS"
  | lessEqualsTime => "LESS_EQUALS_TIME"
  | isIn => "IN"
  | notIn => "NOT_IN"
  | isNull => "NULL"
  | notNull => "NOT_NULL"
  | between => "BETWEEN"
  | notBetween => "NOT_BETWEEN"
  | isEmpty => "IS_EMPTY"
  | isNotEmpty => "IS_NOT_EMPTY"
  | sizeEquals => "SIZE_EQUALS"
  | sizeGreaterThan => "SIZE_GREATER_THAN"
  | sizeLessThan => "SIZE_LESS_THAN"
  | sizeGreaterEquals => "SIZE_GREATER_EQUALS"
  | sizeLessEquals => "SIZE_LESS_EQUALS"

/-- The operator with a name. -/
def ofName? (s : String) : Option Operator :=
  all.find? (·.name = s)

/-- The operator with a name in ASCII letters of either case. -/
def ofText? (s : String) : Option Operator :=
  ofName? (s.map Char.toUpper)

/-- The operator takes no value. Only these operators work with a null value; a criterion
with any other operator and a null value is skipped. -/
def isNullness : Operator → Bool
  | isNull | notNull | isEmpty | isNotEmpty => true
  | _ => false

/-- The operator compares text without regard to case. -/
def ignoresCase : Operator → Bool
  | likeIgnoreCase | startsWithIgnoreCase | endsWithIgnoreCase | containsIgnoreCase
  | notContainsIgnoreCase => true
  | _ => false

/-- The kind of value that the operator compares with. -/
def expects : Operator → Expected
  | isNull | notNull | isEmpty | isNotEmpty => .nothing
  | equals | notEquals => .scalar
  | like | likeIgnoreCase | startsWith | startsWithIgnoreCase | endsWith | endsWithIgnoreCase
  | contains | containsIgnoreCase | notContains | notContainsIgnoreCase => .text
  | greaterThan | greaterEquals | lessThan | lessEquals => .number
  | greaterThanTime | greaterEqualsTime | lessThanTime | lessEqualsTime => .temporal
  | isIn | notIn => .list
  | between | notBetween => .pair
  | sizeEquals | sizeGreaterThan | sizeLessThan | sizeGreaterEquals | sizeLessEquals => .size

/-- No operator is missing from the list of all. -/
theorem mem_all (op : Operator) : op ∈ all := by
  cases op <;> decide

end Operator

end Criteria
