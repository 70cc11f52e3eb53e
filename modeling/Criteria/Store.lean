import Criteria.Aggregate
import Criteria.Metrics
import Criteria.Page
import Criteria.Plan.Compilation

/-!
# Stores

A store holds the documents of one entity and answers conditions about them.

## Main definitions

- `Store`: an entity, its documents and its settings
- `Store.insert`, `Store.load`: adding documents
- `Store.run`: the documents that a condition selects
- `Store.findAll`, `Store.findAllSorted`, `Store.findPage`, `Store.count`, `Store.holds`,
  `Store.aggregate`: the shapes of an answer

## Design notes

Every answer is made from `Store.run`, so all shapes agree on the rows, and each answer
reports one compilation and, if that succeeds, one execution.
-/

namespace Criteria

/-- The documents of one entity. -/
structure Store where
  entity : String
  documents : List Json := []
  settings : Settings := {}
deriving Repr

namespace Store

/-- Adds a document after the others. -/
def insert (s : Store) (document : Json) : Store :=
  { s with documents := s.documents ++ [document] }

/-- The documents that a JSON value lists: its items if it is an array, and otherwise the
value itself. -/
def listedDocuments : Json → List Json
  | .array items => items
  | document => [document]

/-- Adds the documents that a JSON text lists. -/
def load (s : Store) (text : String) : Except QueryError Store :=
  match (Reader.readText (ω := Empty) Reader.json text).outcome with
  | .ok value => .ok { s with documents := s.documents ++ listedDocuments value }
  | .error e => .error (.invalidDocuments e.message)

/-- The selection of a plan, with its event. -/
def execute (s : Store) (p : Plan) : Reporting QueryError Selection :=
  match p.select s.settings.bindingLimit s.documents with
  | .ok found => do
    Logged.note [.queryExecuted s.entity found.scanned found.evaluated found.documents.length]
    return found
  | .error e => do
    Logged.note [.requestRejected s.entity e]
    Logged.fail (.execution e)

/-- The documents that a condition selects, in the order of the store. -/
def run (s : Store) (c : Condition) (purpose : Purpose) : Reporting QueryError (List Json) := do
  let plan ← (c.compileReporting purpose).mapError .condition
  let found ← s.execute plan
  return found.documents

/-- All documents that a condition selects. -/
def findAll (s : Store) (c : Condition) : Reporting QueryError (List Json) :=
  s.run c .documents

/-- All documents that a condition selects, sorted. -/
def findAllSorted (s : Store) (c : Condition) (fields : List SortField) :
    Reporting QueryError (List Json) := do
  let rows ← s.findAll c
  return sortDocuments fields rows

/-- One page of the documents that a condition selects. -/
def findPage (s : Store) (c : Condition) (request : Option PageRequest) :
    Reporting QueryError (Page Json) := do
  let r ← Logged.ofExcept (s.settings.pages.resolve request)
  let rows ← s.findAllSorted c r.sortKeys
  return .cut rows r

/-- How many documents a condition selects. -/
def count (s : Store) (c : Condition) : Reporting QueryError Nat := do
  let rows ← s.run c .number
  return rows.length

/-- A condition selects a document. -/
def holds (s : Store) (c : Condition) : Reporting QueryError Bool := do
  let n ← s.count c
  return n > 0

/-- Aggregates over the documents that a condition selects, as the fields of one row. -/
def aggregate (s : Store) (c : Condition) (aggregates : List Aggregate) :
    Reporting QueryError (List (String × Json)) := do
  let rows ← s.run c .number
  Logged.ofExcept (aggregateAll rows aggregates)

end Store

end Criteria
