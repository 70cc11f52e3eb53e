import Criteria.Join.Insertion

/-!
# Joins as documents

The key of a join in a document may be a path. It then stands for a chain of joins, and
the filter and the children that are listed belong to the first of them.

## Main definitions

- `Join.toJson`: the document of a join
- `Join.ofListing`: the join of a key, a kind, a filter, children and a fetch flag as they
  are listed
- `Join.reader`, `Join.listReader`: readers, which note where siblings are merged
-/

namespace Criteria.Join

mutual

/-- The document of a join; an empty filter and an empty list of children are left out. -/
def toJson : Join → Json
  | ⟨key, kind, filter, children, fetch⟩ =>
    .ofFields <|
      [("key", .text key), ("kind", .text kind.name)] ++
      (if filter.isEmpty then [] else [("filter", filter.toJson)]) ++
      (if children.isEmpty then [] else [("children", .array (toItems children))]) ++
      [("fetch", .bool fetch)]

def toItems : List Join → List Json
  | [] => []
  | j :: rest => toJson j :: toItems rest

end

/-- A join as it is listed in a document. -/
structure Listing where
  key : Option String := none
  kind : JoinKind := .left
  filter : Filter := {}
  children : List Join := []
  fetch : Bool := true

/-- The join of a listing: the chain along its key, with the filter and the children at the
first join of the chain. -/
def ofListing (listing : Listing) (key : String) : Except ConditionError Join := do
  let top ← ofPath key listing.kind listing.fetch
  return { top with
    filter := listing.filter, children := insertAll listing.children top.children }

/-- The identities at which the join of a listing merges its children. -/
def mergedInListing (listing : Listing) (key : String) : List JoinIdentity :=
  match ofPath key listing.kind listing.fetch with
  | .ok top => mergedAll listing.children top.children
  | .error _ => []

/-- The spellings of the fields, in the declared order. -/
def fieldNames : List (List String) :=
  [["key"], ["kind"], ["filter"], ["children"], ["fetch"]]

/-- Reads the field with the given number into a listing, where `children` reads the field
of that name. -/
def readField (children : Reader JoinIdentity (List Join)) :
    Nat → Reader JoinIdentity (Listing → Listing)
  | 0, depth, tree => do
    let key ← Reader.text depth tree
    return fun l => { l with key }
  | 1, depth, tree => do
    let kind ← Reader.case JoinKind.ofName? depth tree
    return fun l => { l with kind }
  | 2, depth, tree => do
    let filter ← Filter.reader depth tree
    return fun l => { l with filter }
  | 3, depth, tree => do
    let children ← children depth tree
    return fun l => { l with children }
  | _, depth, tree => do
    let fetch ← Reader.bool depth tree
    return fun l => { l with fetch }

/-- Siblings read as a list, merged in order. -/
def mergeList (joins : List Join) : Logged JoinIdentity Mismatch (List Join) := do
  Logged.note (mergedAll joins [])
  return ofList joins

/-- Reads a join. -/
def read : Nat → Tree → Logged JoinIdentity Mismatch Join
  | 0, tree => do
    let _ ← Reader.record fieldNames (fun _ _ _ => .fail .tooDeep) ({} : Listing) 0 tree
    .fail .tooDeep
  | depth + 1, tree => do
    let children : Reader JoinIdentity (List Join) := fun _ part =>
      match depth with
      | 0 => do
        let joins ← Reader.list (fun _ _ => .fail .tooDeep) 0 part
        mergeList joins
      | inner + 1 => do
        let joins ← Reader.list (fun _ part => read inner part) (inner + 1) part
        mergeList joins
    let listing ← Reader.record fieldNames (readField children) {} (depth + 1) tree
    let key ← Reader.require "key" listing.key
    match ofListing listing key with
    | .ok j => do
      Logged.note (mergedInListing listing key)
      return j
    | .error e => .fail (.refused e.display)

/-- The reader of joins. -/
def reader : Reader JoinIdentity Join := read

/-- The reader of siblings. -/
def listReader : Reader JoinIdentity (List Join) := fun depth tree => do
  let joins ← Reader.list reader depth tree
  mergeList joins

end Criteria.Join
