import Criteria.Document.Order
import Criteria.Json.Record
import Criteria.Text.Blank

/-!
# Sorting

Documents are sorted by several fields, earlier fields first. Documents that agree on all
fields keep their order.

## Main definitions

- `SortDirection`, `SortField`: a path and a direction
- `SortField.cmp`, `SortField.cmpAll`: the order of documents by one field and by several
- `sortDocuments`: the stable sort
-/

namespace Criteria

inductive SortDirection where
  | ascending
  | descending
deriving DecidableEq, Repr, Inhabited

namespace SortDirection

/-- The direction that a text names: anything but `desc`, in ASCII letters of either case,
is ascending. -/
def ofText (text : String) : SortDirection :=
  if (Text.trim text).map Char.toLower = "desc" then .descending else .ascending

def name : SortDirection → String
  | .ascending => "asc"
  | .descending => "desc"

/-- An order in a direction. -/
def apply : SortDirection → Ordering → Ordering
  | .ascending, o => o
  | .descending, o => o.swap

def reader {ω : Type} : Reader ω SortDirection := fun depth tree => do
  let text ← Reader.text depth tree
  return ofText text

end SortDirection

/-- A path to sort by, and the direction. -/
structure SortField where
  field : String
  direction : SortDirection := .ascending
deriving DecidableEq, Repr, Inhabited

namespace SortField

/-- The order of documents by one field. -/
def cmp (f : SortField) (a b : Json) : Ordering :=
  f.direction.apply (Json.sortCmp (a.resolve? f.field) (b.resolve? f.field))

/-- The order of documents by several fields: the first that tells them apart decides. -/
def cmpAll : List SortField → Json → Json → Ordering
  | [], _, _ => .eq
  | f :: rest, a, b => (f.cmp a b).then (cmpAll rest a b)

def toJson (f : SortField) : Json :=
  .ofFields [("field", .text f.field), ("direction", .text f.direction.name)]

/-- The fields that have been read. -/
structure Draft where
  field : Option String := none
  direction : SortDirection := .ascending

/-- Reads a field to sort by; without a direction it is ascending. -/
def reader {ω : Type} : Reader ω SortField := fun depth tree => do
  let set : Nat → Reader ω (Draft → Draft)
    | 0, depth, tree => do
      let field ← Reader.text depth tree
      return fun d => { d with field }
    | _, depth, tree => do
      let direction ← SortDirection.reader depth tree
      return fun d => { d with direction }
  let draft ← Reader.record [["field"], ["direction"]] set {} depth tree
  let field ← Reader.require "field" draft.field
  return ⟨field, draft.direction⟩

end SortField

/-- The documents sorted by fields, earlier fields first, stably. -/
def sortDocuments (fields : List SortField) (documents : List Json) : List Json :=
  documents.mergeSort fun a b => SortField.cmpAll fields a b != .gt

end Criteria
