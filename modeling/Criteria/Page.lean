import Criteria.QueryError
import Criteria.Settings
import Criteria.Sorting

/-!
# Pages

## Main definitions

- `PageRequest`: which page of what size, and how the rows are sorted
- `PageLimits.resolve`: a request checked against the limits
- `Page`, `Page.cut`: a page of a list of rows
-/

namespace Criteria

/-- The greatest page number, page size and offset. -/
def maxIndex : Nat := Nat.pow 2 64 - 1

/-- A request for a page. -/
structure PageRequest where
  /-- Counted from zero. -/
  number : Nat := 0
  size : Nat := defaultPageSize
  /-- A single field to sort by, unless there are several. -/
  sortBy : Option String := none
  sortDirection : SortDirection := .ascending
  /-- Several fields to sort by. -/
  sortFields : List SortField := []
deriving DecidableEq, Repr, Inhabited

namespace PageRequest

def ofSize (number size : Nat) : PageRequest :=
  { number, size }

/-- The request with a single field to sort by. -/
def withSort (r : PageRequest) (field direction : String) : PageRequest :=
  { r with sortBy := some field, sortDirection := .ofText direction }

/-- The page after. Numbers are words, so the first page comes after the one of the greatest
number. -/
def next (r : PageRequest) : PageRequest :=
  { r with number := (r.number + 1) % (maxIndex + 1) }

/-- The page before, or the first page if there is none. -/
def previous (r : PageRequest) : PageRequest :=
  { r with number := r.number - 1 }

/-- The fields to sort by. A single field that is blank counts as none. -/
def sortKeys (r : PageRequest) : List SortField :=
  if !r.sortFields.isEmpty then r.sortFields
  else
    match r.sortBy with
    | some field => if Text.isBlank field then [] else [⟨field, r.sortDirection⟩]
    | none => []

/-- The number of rows before the page, which is never beyond the greatest index. -/
def offset (r : PageRequest) : Nat :=
  min (r.number * r.size) maxIndex

def toJson (r : PageRequest) : Json :=
  .ofFields <|
    [("page_number", .ofNat r.number), ("page_size", .ofNat r.size)] ++
    (match r.sortBy with
      | some field => [("sort_by", .text field)]
      | none => []) ++
    [("sort_direction", .text r.sortDirection.name)] ++
    (if r.sortFields.isEmpty then []
      else [("sort_fields", .array (r.sortFields.map SortField.toJson))])

/-- The spellings of the fields, in the declared order. -/
def fieldNames : List (List String) :=
  [["page_number"], ["page_size"], ["sort_by"], ["sort_direction"], ["sort_fields"]]

/-- Reads a request; every field may be missing. -/
def reader {ω : Type} : Reader ω PageRequest :=
  Reader.record fieldNames
    (fun
      | 0, depth, tree => do
        let number ← Reader.unsigned depth tree
        return fun r => { r with number }
      | 1, depth, tree => do
        let size ← Reader.unsigned depth tree
        return fun r => { r with size }
      | 2, depth, tree => do
        let sortBy ← Reader.optional Reader.text depth tree
        return fun r => { r with sortBy }
      | 3, depth, tree => do
        let sortDirection ← SortDirection.reader depth tree
        return fun r => { r with sortDirection }
      | _, depth, tree => do
        let sortFields ← Reader.list SortField.reader depth tree
        return fun r => { r with sortFields })
    {}

end PageRequest

namespace PageLimits

/-- The first page at the default size. -/
def defaultRequest (limits : PageLimits) : PageRequest :=
  .ofSize 0 limits.defaultSize

/-- The request to answer: the default one if there is none, and no request for a size of
zero or beyond the limit. -/
def resolve (limits : PageLimits) : Option PageRequest → Except QueryError PageRequest
  | none => .ok limits.defaultRequest
  | some r =>
    if r.size = 0 then .error (.invalidPage "page size must be at least 1")
    else if limits.maxSize < r.size then
      .error (.invalidPage s!"page size {r.size} exceeds maximum {limits.maxSize}")
    else .ok r

end PageLimits

/-- A page of a list of rows. -/
structure Page (α : Type) where
  content : List α
  number : Nat
  size : Nat
  /-- The number of rows on all pages. -/
  totalElements : Nat
  totalPages : Nat
deriving Repr

namespace Page

variable {α β : Type}

/-- The requested page of sorted rows; a size of zero counts as one. -/
def cut (rows : List α) (r : PageRequest) : Page α :=
  let size := max r.size 1
  { content := (rows.drop r.offset).take size
    number := r.number
    size
    totalElements := rows.length
    totalPages := (rows.length + size - 1) / size }

def isFirst (p : Page α) : Bool :=
  p.number == 0

/-- No page comes after this one. -/
def isLast (p : Page α) : Bool :=
  p.totalPages ≤ min (p.number + 1) maxIndex

def hasNext (p : Page α) : Bool :=
  !p.isLast

def map (f : α → β) (p : Page α) : Page β :=
  { p with content := p.content.map f }

def toJson (p : Page Json) : Json :=
  .ofFields
    [("content", .array p.content), ("page_number", .ofNat p.number),
     ("page_size", .ofNat p.size), ("total_elements", .ofNat p.totalElements),
     ("total_pages", .ofNat p.totalPages)]

end Page

end Criteria
