import Criteria.Json.Number

/-!
# JSON documents

## Main definitions

- `Json`: a document; the fields of an object stand in increasing order of their keys
- `Json.insertField`, `Json.ofFields`: the only ways in which objects are built here
- `Json.get?`: the field of an object
- `Json.ofDouble`: a floating-point number as a document, null if it is not finite

## Design notes

Objects keep the last of several values for one key, so an object is a finite map and its
list of fields is strictly sorted.
-/

namespace Criteria

/-- A JSON document. -/
inductive Json where
  | null
  | bool (b : Bool)
  | number (n : Number)
  | text (s : String)
  | array (items : List Json)
  | object (fields : List (String × Json))
deriving Repr, Inhabited

namespace Json

/-- Puts a value at its key into fields that are sorted by key, in place of the value
that stands there. -/
def insertField (key : String) (value : Json) :
    List (String × Json) → List (String × Json)
  | [] => [(key, value)]
  | (k, v) :: rest =>
    if key < k then (key, value) :: (k, v) :: rest
    else if key = k then (key, value) :: rest
    else (k, v) :: insertField key value rest

/-- Sorts fields by key; of several values for one key the last stays. -/
def sortFields (fields : List (String × Json)) : List (String × Json) :=
  fields.foldl (fun sorted (key, value) => insertField key value sorted) []

/-- The object with the given fields. -/
def ofFields (fields : List (String × Json)) : Json :=
  .object (sortFields fields)

/-- The value at a key among fields. -/
def lookup? (key : String) : List (String × Json) → Option Json
  | [] => none
  | (k, v) :: rest => if k = key then some v else lookup? key rest

/-- The field of an object. -/
def get? (key : String) : Json → Option Json
  | .object fields => lookup? key fields
  | _ => none

def isNull : Json → Bool
  | .null => true
  | _ => false

/-- An integer as a document. -/
def ofInt (i : Int) : Json :=
  .number (.int i)

/-- A natural number as a document. -/
def ofNat (n : Nat) : Json :=
  .number (.int n)

/-- A floating-point number as a document: null if it is not finite. -/
def ofDouble (x : Double) : Json :=
  if x.isFinite then .number (.double x) else .null

/-- A text that may be absent. -/
def ofText? : Option String → Json
  | some s => .text s
  | none => .null

theorem lookup?_insertField_self (key : String) (value : Json) (fields : List (String × Json)) :
    lookup? key (insertField key value fields) = some value := by
  induction fields with
  | nil => simp [insertField, lookup?]
  | cons f rest ih =>
    obtain ⟨k, v⟩ := f
    simp only [insertField]
    split
    · simp [lookup?]
    · split
      · simp [lookup?]
      · rename_i hne
        simp [lookup?, Ne.symm hne, ih]

end Json

end Criteria
