import Criteria.Store

/-!
# Catalogs

A catalog answers the usual questions about the documents of a store: look-ups by
identifier, lists and pages, counts, and free-text search.

## Main definitions

- `Catalog`: a store and the path of the identifier
- `Catalog.findById`, `Catalog.findOptionalById`, `Catalog.findByIdWith`,
  `Catalog.findAllByIds`: look-ups by identifier
- `Catalog.listByEqual` and its relatives: documents with given values
- `Catalog.search`, `Catalog.searchPage`: documents that contain a text
- `Catalog.findFiltered`, `Catalog.countFiltered`: queries by a filter of another type

## Design notes

Joins given as paths only load rows, since a left join drops no document. Joins given as
trees keep their kinds and filters and may restrict the answer.
-/

namespace Criteria

/-- The path of the identifier, unless another is set. -/
def defaultIdField : String := "id"

/-- A store and the path at which its documents hold their identifier. -/
structure Catalog where
  store : Store
  idField : String := defaultIdField
deriving Repr

namespace Catalog

/-- The condition with the chains of joins along paths added. -/
def withPaths (c : Condition) (paths : List String) : Reporting QueryError Condition := do
  let (c', outcome) := c.addPaths paths
  Logged.note ((c.mergedPaths paths).map .joinMerged)
  Logged.ofExcept (outcome.mapError .condition)
  return c'

/-- The condition with joins added. -/
def withJoins (c : Condition) (joins : List Join) : Reporting QueryError Condition := do
  Logged.note ((Join.mergedAll joins c.joins).map .joinMerged)
  return joins.foldl Condition.addJoin c

/-- The condition that the attributes at paths have given values. -/
def equalities (pairs : List (String × Value)) : Condition :=
  { filter := pairs.foldl (fun f (path, value) => f.add path value .equals) {} }

/-- The condition that a document has an identifier. -/
def hasId (k : Catalog) (id : Value) : Condition :=
  equalities [(k.idField, id)]

/-- The error of a look-up that found nothing, with its event. -/
def notFound {α : Type} (k : Catalog) (criteria : String) : Reporting QueryError α := do
  Logged.note [.entityNotFound k.store.entity criteria]
  Logged.fail (.notFound k.store.entity criteria)

/-- The first row of an answer. -/
def firstOr {α : Type} (rows : List α) (otherwise : Reporting QueryError α) :
    Reporting QueryError α :=
  match rows with
  | row :: _ => return row
  | [] => otherwise

/-- What was looked for, in the error of a look-up by identifier. -/
def idCriteria (k : Catalog) (id : Value) : String :=
  s!"{k.idField} = {id.display}"

/-- Refuses a null identifier. -/
def requireId (k : Catalog) (id : Value) : Reporting QueryError Unit :=
  if id.isNull then Logged.fail (.invalidIdentifier s!"{k.idField} must not be null")
  else return ()

/-- The rows with an identifier. -/
def rowsById (k : Catalog) (id : Value) (paths : List String) :
    Reporting QueryError (List Json) := do
  let c ← withPaths (k.hasId id) paths
  k.store.findAll c

/-- The document with an identifier. -/
def findById (k : Catalog) (id : Value) (paths : List String) : Reporting QueryError Json := do
  k.requireId id
  let rows ← k.rowsById id paths
  firstOr rows (k.notFound (k.idCriteria id))

/-- The document with an identifier, if there is one. A null identifier has none. -/
def findOptionalById (k : Catalog) (id : Value) (paths : List String) :
    Reporting QueryError (Option Json) :=
  if id.isNull then return none
  else do
    let rows ← k.rowsById id paths
    return rows.head?

/-- The document with an identifier, restricted by joins. -/
def findByIdWith (k : Catalog) (id : Value) (joins : List Join) :
    Reporting QueryError Json := do
  k.requireId id
  let c ← withJoins (k.hasId id) joins
  let rows ← k.store.findAll c
  firstOr rows (k.notFound (k.idCriteria id))

/-- The documents whose identifier is one of several. -/
def findAllByIds (k : Catalog) (ids : List Value) (paths : List String) :
    Reporting QueryError (List Json) := do
  let c ← withPaths { filter := ({} : Filter).add k.idField (.list ids) .isIn } paths
  k.store.findAll c

/-- The first document that a condition selects. -/
def findFirst (k : Catalog) (c : Condition) : Reporting QueryError (Option Json) := do
  let page ← k.store.findPage c (some (.ofSize 0 1))
  return page.content.head?

/-- One page of the documents that a condition selects, with chains of joins added. -/
def findPage (k : Catalog) (c : Condition) (request : Option PageRequest)
    (paths : List String) : Reporting QueryError (Page Json) := do
  let c ← withPaths c paths
  k.store.findPage c request

/-- The documents of one page. -/
def findAll (k : Catalog) (c : Condition) (request : Option PageRequest)
    (paths : List String) : Reporting QueryError (List Json) := do
  let page ← k.findPage c request paths
  return page.content

/-- The identifiers of the documents that a condition selects: the values at the key that
the identifier's path spells, or null. -/
def findIds (k : Catalog) (c : Condition) : Reporting QueryError (List Json) := do
  let rows ← k.store.findAll { c with suppressFetch := true }
  return rows.map fun row => (row.get? k.idField).getD .null

def count (k : Catalog) (c : Condition) : Reporting QueryError Nat :=
  k.store.count c

def holds (k : Catalog) (c : Condition) : Reporting QueryError Bool :=
  k.store.holds c

/-- Some document has the given values. -/
def holdsEqual (k : Catalog) (pairs : List (String × Value)) : Reporting QueryError Bool :=
  k.holds (equalities pairs)

/-- The documents with the given values. -/
def listByEqual (k : Catalog) (pairs : List (String × Value)) (paths : List String) :
    Reporting QueryError (List Json) := do
  let c ← withPaths (equalities pairs) paths
  k.store.findAll c

/-- The documents that a condition selects, restricted by joins. -/
def listByConditionWith (k : Catalog) (c : Condition) (joins : List Join) :
    Reporting QueryError (List Json) := do
  let c ← withJoins c joins
  k.store.findAll c

/-- The documents with the given values, restricted by joins. -/
def listByEqualWith (k : Catalog) (pairs : List (String × Value)) (joins : List Join) :
    Reporting QueryError (List Json) :=
  k.listByConditionWith (equalities pairs) joins

/-- The first document that a condition selects, restricted by joins. -/
def findOneByConditionWith (k : Catalog) (c : Condition) (joins : List Join) :
    Reporting QueryError Json := do
  let rows ← k.listByConditionWith c joins
  firstOr rows (k.notFound (String.ofList c.filter.listed))

/-- The first document with the given values, restricted by joins. -/
def findOneByEqualWith (k : Catalog) (pairs : List (String × Value)) (joins : List Join) :
    Reporting QueryError Json :=
  k.findOneByConditionWith (equalities pairs) joins

/-- The condition that one of several attributes contains a text, whatever the case. -/
def contains (text : String) (fields : List String) : Condition :=
  let group := fields.foldl (fun f field => f.add field (.text text) .containsIgnoreCase) {}
  { filter := { orGroup := some group } }

/-- One page of the documents in which one of several attributes contains a text. -/
def searchPage (k : Catalog) (text : String) (fields : List String)
    (request : Option PageRequest) : Reporting QueryError (Page Json) :=
  k.store.findPage (contains text fields) request

/-- The documents of one page of a search. -/
def search (k : Catalog) (text : String) (fields : List String)
    (request : Option PageRequest) : Reporting QueryError (List Json) := do
  let page ← k.searchPage text fields request
  return page.content

/-- One page of the documents that a filter of another type selects, once it is translated
into a condition. -/
def findFiltered {α : Type} (k : Catalog) (translate : α → Condition) (filter : α)
    (request : Option PageRequest) : Reporting QueryError (Page Json) :=
  k.store.findPage (translate filter) request

/-- How many documents a filter of another type selects. -/
def countFiltered {α : Type} (k : Catalog) (translate : α → Condition) (filter : α) :
    Reporting QueryError Nat :=
  k.store.count (translate filter)

end Catalog

end Criteria
