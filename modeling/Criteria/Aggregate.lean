import Criteria.Document.Order
import Criteria.Json.Printer
import Criteria.Json.Record
import Criteria.QueryError
import Criteria.Text.Blank

/-!
# Aggregates

## Main definitions

- `AggregateKind`, `Aggregate`: a function over the values at a path
- `Aggregate.label`: the key of the result
- `Aggregate.eval`: the value over a list of rows
- `aggregateAll`: several aggregates as one row

## Design notes

Rows without a value at the path, or with null there, do not count. Sums and averages are
computed with floating-point numbers, one after the other, and a whole result of fewer
than 63 bits is written as an integer.
-/

namespace Criteria

inductive AggregateKind where
  | count
  | countDistinct
  | sum
  | avg
  | max
  | min
deriving DecidableEq, Repr, Inhabited

namespace AggregateKind

def all : List AggregateKind :=
  [count, countDistinct, sum, avg, max, min]

def name : AggregateKind → String
  | count => "COUNT"
  | countDistinct => "COUNT_DISTINCT"
  | sum => "SUM"
  | avg => "AVG"
  | max => "MAX"
  | min => "MIN"

def ofName? (s : String) : Option AggregateKind :=
  all.find? (·.name = s)

/-- The kind that a text names: without the white space at its ends, in ASCII letters of
either case, and with a hyphen for an underscore. -/
def ofText? (text : String) : Option AggregateKind :=
  ofName? ((Text.trim text).map fun c => if c = '-' then '_' else c.toUpper)

end AggregateKind

/-- A function over the values at a path; the path `*` stands for the rows themselves in a
count. -/
structure Aggregate where
  field : String
  kind : AggregateKind
  /-- The key of the result, if one is given. -/
  title : Option String := none
deriving DecidableEq, Repr, Inhabited

namespace Aggregate

/-- The number of rows. -/
def countRows : Aggregate :=
  ⟨"*", .count, some "count"⟩

/-- An aggregate with the usual title of its kind. -/
def named (kind : AggregateKind) (field : String) : Aggregate :=
  let title :=
    match kind with
    | .count => "count"
    | .countDistinct => "countDistinct"
    | .sum => "sum"
    | .avg => "avg"
    | .max => "max"
    | .min => "min"
  ⟨field, kind, some title⟩

/-- The key of the result: the title, or the kind and the path with underscores. -/
def label (a : Aggregate) : String :=
  match a.title with
  | some title => title
  | none =>
    a.kind.name.map Char.toLower ++ "_" ++ a.field.map fun c => if c = '.' then '_' else c

/-- The values at the path that are not null, in the order of the rows. -/
def values (a : Aggregate) (rows : List Json) : List Json :=
  rows.filterMap fun row =>
    match row.resolve? a.field with
    | some .null => none
    | value => value

/-- The values at the path as numbers; the first that is none gives the error. -/
def numbers (a : Aggregate) (rows : List Json) : Except QueryError (List Double) :=
  (a.values rows).mapM fun
    | .number n => .ok n.toDouble
    | value =>
      .error (.invalidAggregate
        s!"{a.kind.name} over '{a.field}' found non-numeric value {value.compact}")

/-- A computed number as a document: an integer if it is whole and below `2 ^ 63`. -/
def ofComputed (x : Double) : Json :=
  match x.toInt? with
  | some i => if i.natAbs < Nat.pow 2 63 then .ofInt i else .ofDouble x
  | none => .ofDouble x

/-- The sum of numbers, from first to last. -/
def sumOf (xs : List Double) : Double :=
  xs.foldl Double.add .zero

/-- The last of the greatest values. -/
def maxOf : List Json → Option Json
  | [] => none
  | first :: rest =>
    some (rest.foldl (fun best v => if Json.sortValues best v == .gt then best else v) first)

/-- The first of the least values. -/
def minOf : List Json → Option Json
  | [] => none
  | first :: rest =>
    some (rest.foldl (fun best v => if Json.sortValues best v == .gt then v else best) first)

/-- The number of different texts of the values. -/
def countTexts (vs : List Json) : Nat :=
  (vs.foldl (fun seen v => if seen.contains v.compact then seen else v.compact :: seen) []).length

/-- The value of an aggregate over rows. Sums, averages and extremes of nothing are null. -/
def eval (a : Aggregate) (rows : List Json) : Except QueryError Json :=
  match a.kind with
  | .count =>
    .ok (.ofNat (if a.field = "*" then rows.length else (a.values rows).length))
  | .countDistinct => .ok (.ofNat (countTexts (a.values rows)))
  | .sum => do
    let xs ← a.numbers rows
    return if xs.isEmpty then .null else ofComputed (sumOf xs)
  | .avg => do
    let xs ← a.numbers rows
    return if xs.isEmpty then .null else ofComputed ((sumOf xs).div (.ofNat xs.length))
  | .max => .ok ((maxOf (a.values rows)).getD .null)
  | .min => .ok ((minOf (a.values rows)).getD .null)

def toJson (a : Aggregate) : Json :=
  .ofFields <|
    [("field_name", .text a.field), ("aggregation_type", .text a.kind.name)] ++
    (match a.title with
      | some title => [("alias", .text title)]
      | none => [])

/-- The fields that have been read. -/
structure Draft where
  field : Option String := none
  kind : Option AggregateKind := none
  title : Option String := none

/-- Reads an aggregate; the title may be missing. -/
def reader {ω : Type} : Reader ω Aggregate := fun depth tree => do
  let set : Nat → Reader ω (Draft → Draft)
    | 0, depth, tree => do
      let field ← Reader.text depth tree
      return fun d => { d with field }
    | 1, depth, tree => do
      let kind ← Reader.case AggregateKind.ofName? depth tree
      return fun d => { d with kind }
    | _, depth, tree => do
      let title ← Reader.optional Reader.text depth tree
      return fun d => { d with title }
  let draft ← Reader.record [["field_name"], ["aggregation_type"], ["alias"]] set {} depth tree
  let field ← Reader.require "field_name" draft.field
  let kind ← Reader.require "aggregation_type" draft.kind
  return ⟨field, kind, draft.title⟩

end Aggregate

/-- Several aggregates over rows as the fields of one row; of two with the same label the
later one stays. The first that fails gives the error. -/
def aggregateAll (rows : List Json) : List Aggregate → Except QueryError (List (String × Json))
  | aggregates => do
    let fields ← aggregates.mapM fun a => do
      let value ← a.eval rows
      return (a.label, value)
    return Json.sortFields fields

end Criteria
