import Criteria.Condition
import Criteria.Predicate.Encoding
import Criteria.Predicate.Text
import Criteria.Text.Lowercase

/-!
# Plans

A plan is a condition made ready for execution: one predicate, and the traversals of its
joins numbered in preorder.

## Main definitions

- `Traversal`, `Plan`: the parts of a plan
- `Criterion.predicate`, `Criterion.compile`: the predicate of one criterion
- `Condition.visits`: the joins of a condition in preorder, with their traversals
- `Condition.consulted`: the criteria that a plan depends on, in order
- `Condition.compile`: the plan of a condition
- `Plan.traversalPath?`: the path of a traversal from the document

## Design notes

The criteria of the document are joined by `and`, and so is the disjunction of its
alternatives. The criteria of all joins are joined by `and` in preorder. The alternatives of
all joins form one pool: one of them has to be met, on whichever join it stands.
-/

namespace Criteria

/-- Whether the rows of a traversal are loaded with the document or restrict it only. -/
inductive TraversalMode where
  | fetch
  | join
deriving DecidableEq, Repr

def TraversalMode.name : TraversalMode → String
  | .fetch => "FETCH"
  | .join => "JOIN"

/-- The step from a document, or from the rows of an earlier traversal, to the rows under
one key. -/
structure Traversal where
  id : Nat
  /-- The earlier traversal, if the step does not start at the document. -/
  parent : Option Nat
  key : String
  kind : JoinKind
  mode : TraversalMode
deriving DecidableEq, Repr

/-- A condition made ready for execution. -/
structure Plan where
  predicate : Predicate
  /-- In preorder: a parent comes before its children. -/
  traversals : List Traversal
  distinct : Bool
  /-- The number of criteria that take no part. -/
  skipped : Nat
deriving Repr

/-- What a query is for: documents, or a number about them, for which no rows need to be
loaded. -/
inductive Purpose where
  | documents
  | number
deriving DecidableEq, Repr

namespace Criterion

/-- The comparison with a pattern; to ignore case, both sides are taken in lower case. -/
def likeComparison (target : Attribute) (ignoresCase : Bool) (pattern : String) :
    Comparison :=
  if ignoresCase then .like (.lower target) (Text.lower pattern)
  else .like (.plain target) pattern

/-- The predicate of a criterion whose value is of the expected kind. -/
def predicate (c : Criterion) (source : Source) : Predicate :=
  let target : Attribute := ⟨source, c.path⟩
  let plain := Operand.plain target
  let size := Operand.size target
  let like := likeComparison target c.operator.ignoresCase
  let text := c.value.pattern
  let items := c.value.toList?.getD []
  let (lower, upper) := c.value.toPair?.getD (.null, .null)
  match c.operator with
  | .equals => .compare (.equal plain c.value)
  | .notEquals => .compare (.notEqual plain c.value)
  | .like | .likeIgnoreCase | .contains | .containsIgnoreCase =>
    .compare (like ("%" ++ text ++ "%"))
  | .startsWith | .startsWithIgnoreCase => .compare (like (text ++ "%"))
  | .endsWith | .endsWithIgnoreCase => .compare (like ("%" ++ text))
  | .notContains | .notContainsIgnoreCase => .not (.compare (like ("%" ++ text ++ "%")))
  | .greaterThan | .greaterThanTime => .compare (.greaterThan plain c.value)
  | .greaterEquals | .greaterEqualsTime => .compare (.greaterEquals plain c.value)
  | .lessThan | .lessThanTime => .compare (.lessThan plain c.value)
  | .lessEquals | .lessEqualsTime => .compare (.lessEquals plain c.value)
  | .isIn => .compare (.oneOf plain items)
  | .notIn => .not (.compare (.oneOf plain items))
  | .isNull => .compare (.isNull plain)
  | .notNull => .compare (.isNotNull plain)
  | .between => .compare (.between plain lower upper)
  | .notBetween => .not (.compare (.between plain lower upper))
  | .isEmpty => .compare (.isEmpty plain)
  | .isNotEmpty => .compare (.isNotEmpty plain)
  | .sizeEquals => .compare (.equal size c.value)
  | .sizeGreaterThan => .compare (.greaterThan size c.value)
  | .sizeLessThan => .compare (.lessThan size c.value)
  | .sizeGreaterEquals => .compare (.greaterEquals size c.value)
  | .sizeLessEquals => .compare (.lessEquals size c.value)

/-- The path has no blank segment and the value is of the expected kind. -/
def checkActive (c : Criterion) : Except ConditionError Unit := do
  let _ ← Path.segments c.path
  c.checkValue

/-- The predicate of a criterion, if it is well formed. -/
def compile (source : Source) (c : Criterion) : Except ConditionError Predicate := do
  c.checkActive
  return c.predicate source

end Criterion

/-- The predicates of the criteria that take part. -/
def compileActive (source : Source) (criteria : List Criterion) :
    Except ConditionError (List Predicate) :=
  (criteria.filter fun c => !c.isSkipped).mapM (Criterion.compile source)

namespace Filter

/-- The criteria that a plan depends on: those of the filter and then its alternatives. -/
def consulted (f : Filter) : List Criterion :=
  f.criteria ++ f.alternatives

/-- What a filter requires: all of its criteria, and one of its alternatives. -/
structure Clauses where
  required : Option Predicate
  alternative : Option Predicate

/-- The clauses of a filter on rows of a source. -/
def clauses (source : Source) (f : Filter) : Except ConditionError Clauses := do
  let required ← compileActive source f.criteria
  let alternatives ← compileActive source f.alternatives
  return ⟨Predicate.all? required, Predicate.any? alternatives⟩

end Filter

/-- A join as it is met in preorder: its traversal and its filter. -/
structure Visit where
  traversal : Traversal
  filter : Filter

namespace Join

mutual

/-- The joins of a tree in preorder, numbered from `next` on. -/
def visits (mode : TraversalMode) (parent : Option Nat) (next : Nat) : Join → List Visit
  | ⟨key, kind, filter, children, _⟩ =>
    ⟨⟨next, parent, key, kind, mode⟩, filter⟩ ::
      visitsOf mode (some next) (next + 1) children

/-- The joins of several trees in preorder, numbered from `next` on. -/
def visitsOf (mode : TraversalMode) (parent : Option Nat) (next : Nat) :
    List Join → List Visit
  | [] => []
  | j :: rest =>
    let here := visits mode parent next j
    here ++ visitsOf mode parent (next + here.length) rest

end

/-- The mode of a tree of joins, which its top join decides. -/
def mode (mayFetch : Bool) (j : Join) : TraversalMode :=
  if mayFetch && j.fetch then .fetch else .join

/-- The top joins with their trees in preorder, numbered from `next` on. -/
def topVisits (mayFetch : Bool) (next : Nat) : List Join → List Visit
  | [] => []
  | j :: rest =>
    let here := visits (j.mode mayFetch) none next j
    here ++ topVisits mayFetch (next + here.length) rest

end Join

namespace Condition

/-- The query may load rows of its joins. -/
def mayFetch (c : Condition) (purpose : Purpose) : Bool :=
  !c.suppressFetch && purpose == .documents

/-- The joins of a condition in preorder. -/
def visits (c : Condition) (purpose : Purpose) : List Visit :=
  Join.topVisits (c.mayFetch purpose) 0 c.joins

/-- The criteria that a plan depends on, in the order in which they are looked at. -/
def consulted (c : Condition) : List Criterion :=
  c.filter.consulted ++ (c.visits .documents).flatMap fun v => v.filter.consulted

/-- The plan of a condition. The first criterion that takes part and is not well formed
gives the error. -/
def compile (c : Condition) (purpose : Purpose) : Except ConditionError Plan := do
  let visits := c.visits purpose
  let root ← c.filter.clauses .root
  let joins ← visits.mapM fun v => v.filter.clauses (.join v.traversal.id)
  let rootClause := Predicate.all? (root.required.toList ++ root.alternative.toList)
  let required := Predicate.all? (joins.filterMap (·.required))
  let alternative := Predicate.any? (joins.filterMap (·.alternative))
  let joinClause := Predicate.all? (required.toList ++ alternative.toList)
  let predicate := Predicate.all? (rootClause.toList ++ joinClause.toList)
  return {
    predicate := predicate.getD .always
    traversals := visits.map (·.traversal)
    distinct := c.distinct
    skipped := c.consulted.countP Criterion.isSkipped }

end Condition

namespace Plan

/-- A traversal loads its rows. -/
def fetches (p : Plan) : Bool :=
  p.traversals.any (·.mode == .fetch)

/-- The keys from the document to a traversal, last key first, along at most `fuel`
parents. -/
def keysUp (traversals : List Traversal) : Nat → Nat → List String
  | 0, _ => []
  | fuel + 1, id =>
    match traversals[id]? with
    | none => []
    | some t =>
      t.key :: (match t.parent with
        | some parent => keysUp traversals fuel parent
        | none => [])

/-- The path of a traversal from the document. -/
def traversalPath? (p : Plan) (id : Nat) : Option String :=
  match keysUp p.traversals p.traversals.length id with
  | [] => none
  | keys => some (Text.join "." keys.reverse)

end Plan

/-- The text of a traversal. -/
def Traversal.display (t : Traversal) : String :=
  let start :=
    match t.parent with
    | some parent => s!"j{parent}"
    | none => "root"
  s!"j{t.id}: {t.kind.name} {t.mode.name} {start}.{t.key}"

def Traversal.toJson (t : Traversal) : Json :=
  .ofFields
    [("id", .ofNat t.id),
     ("parent", match t.parent with | some parent => .ofNat parent | none => .null),
     ("attribute", .text t.key), ("kind", .text t.kind.name),
     ("mode", .text t.mode.name)]

/-- The plan as a document. -/
def Plan.toJson (p : Plan) : Json :=
  .ofFields
    [("predicate", p.predicate.toJson), ("traversals", .array (p.traversals.map (·.toJson))),
     ("distinct", .bool p.distinct), ("skipped_parameters", .ofNat p.skipped)]

end Criteria
