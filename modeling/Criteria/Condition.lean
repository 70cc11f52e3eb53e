import Criteria.Join.Codec

/-!
# Conditions

A condition describes a query: a filter on documents, the joins to follow, and two flags
on the shape of the result.

## Main definitions

- `Condition`: the parts of a query
- `Condition.check`: whether all criteria are well formed
- `Condition.addJoin`, `Condition.addPath`, `Condition.addPaths`: adding joins
- `Condition.toJson`, `Condition.reader`, `Condition.ofText`: conditions as documents
-/

namespace Criteria

/-- A declarative description of a query. -/
structure Condition where
  /-- Criteria on the documents themselves. -/
  filter : Filter := {}
  joins : List Join := []
  /-- Each document is returned once at most. -/
  distinct : Bool := false
  /-- No join loads its rows, whatever its own flag. -/
  suppressFetch : Bool := false
deriving Repr, Inhabited

namespace Condition

/-- Every criterion is well formed, first of the filter and then of the joins. -/
def check (c : Condition) : Except ConditionError Unit := do
  c.filter.check
  Join.checkAll c.joins

/-- Adds a join, merged with one of the same identity. -/
def addJoin (c : Condition) (j : Join) : Condition :=
  { c with joins := Join.insert c.joins j }

/-- Adds the chain of joins along a path, which load their rows. -/
def addPath (c : Condition) (path : String) (kind : JoinKind := .left) :
    Except ConditionError Condition := do
  let j ← Join.ofPath path kind true
  return c.addJoin j

/-- Adds the chains of joins along several paths. A path with a blank segment ends this
with an error, and the paths before it stay added. -/
def addPaths (c : Condition) : List String → Condition × Except ConditionError Unit
  | [] => (c, .ok ())
  | path :: rest =>
    match c.addPath path with
    | .ok c => addPaths c rest
    | .error e => (c, .error e)

/-- The identities at which adding chains along paths merges, in order. -/
def mergedPaths (c : Condition) : List String → List JoinIdentity
  | [] => []
  | path :: rest =>
    match Join.ofPath path .left true with
    | .ok j => Join.mergedInto j c.joins ++ mergedPaths (c.addJoin j) rest
    | .error _ => []

/-- The condition as a document; joins are left out if there are none. -/
def toJson (c : Condition) : Json :=
  .ofFields <|
    [("filter", c.filter.toJson)] ++
    (if c.joins.isEmpty then [] else [("joins", .array (Join.toItems c.joins))]) ++
    [("distinct", .bool c.distinct), ("suppress_fetch", .bool c.suppressFetch)]

/-- The spellings of the fields, in the declared order. -/
def fieldNames : List (List String) :=
  [["filter"], ["joins"], ["distinct"], ["suppress_fetch"]]

/-- Reads the field with the given number into a condition. -/
def readField : Nat → Reader JoinIdentity (Condition → Condition)
  | 0, depth, tree => do
    let filter ← Filter.reader depth tree
    return fun c => { c with filter }
  | 1, depth, tree => do
    let joins ← Join.listReader depth tree
    return fun c => { c with joins }
  | 2, depth, tree => do
    let distinct ← Reader.bool depth tree
    return fun c => { c with distinct }
  | _, depth, tree => do
    let suppressFetch ← Reader.bool depth tree
    return fun c => { c with suppressFetch }

/-- The reader of conditions; every field may be missing. -/
def reader : Reader JoinIdentity Condition :=
  Reader.record fieldNames readField {}

/-- The condition that a text denotes, with every criterion checked. -/
def ofText (text : String) : Logged JoinIdentity ConditionError Condition := do
  let c ← (reader.readText text).mapError fun e => .unreadable e.message
  Logged.ofExcept c.check
  return c

end Condition

end Criteria
