import Criteria.Json.Basic
import Criteria.Path
import Criteria.Time.Reader

/-!
# Looking into documents

## Main definitions

- `Json.resolve?`: the value at a path
- `Json.compare?`: the order that comparisons use, undefined between different kinds
- `Json.sortCmp`: the order that sorting uses, defined everywhere
- `Json.likeText?`: the text that patterns are held against

## Design notes

Numbers are compared as floating-point numbers. Two texts that both denote timestamps are
compared as points in time, otherwise by their characters.
-/

namespace Criteria.Json

/-- Follows keys through nested objects. -/
def follow? : List String → Json → Option Json
  | [], j => some j
  | key :: rest, j => (j.get? key).bind (follow? rest)

/-- The value at a dotted path. -/
def resolve? (j : Json) (path : String) : Option Json :=
  follow? (Path.parts path) j

/-- The order of numbers. -/
def compareNumbers? (a b : Number) : Option Ordering :=
  a.toDouble.compare? b.toDouble

/-- The order of texts: in time if both denote timestamps, and otherwise by characters. -/
def compareTexts (a b : String) : Ordering :=
  match Timestamp.ofText? a, Timestamp.ofText? b with
  | some s, some t => s.cmp t
  | _, _ => compare a b

/-- The order of two values of one scalar kind; other values are incomparable. -/
def compare? : Json → Json → Option Ordering
  | .number a, .number b => compareNumbers? a b
  | .text a, .text b => some (compareTexts a b)
  | .bool a, .bool b => some (compare a b)
  | _, _ => none

/-- The order of texts in sorting: timestamps in time come before other texts. -/
def sortTexts (a b : String) : Ordering :=
  match Timestamp.ofText? a, Timestamp.ofText? b with
  | some s, some t => s.cmp t
  | some _, none => .lt
  | none, some _ => .gt
  | none, none => compare a b

/-- The place of the kind of a value in sorting. -/
def kindRank : Json → Nat
  | .null => 0
  | .bool _ => 1
  | .number _ => 2
  | .text _ => 3
  | .array _ => 4
  | .object _ => 5

/-- The order of values in sorting: by kind, and within a kind of scalars by size. -/
def sortValues : Json → Json → Ordering
  | .text a, .text b => sortTexts a b
  | a, b => (compare a.kindRank b.kindRank).then ((compare? a b).getD .eq)

/-- The order in sorting of values that may be missing, which come first. -/
def sortCmp : Option Json → Option Json → Ordering
  | none, none => .eq
  | none, some _ => .lt
  | some _, none => .gt
  | some a, some b => sortValues a b

/-- The text that patterns are held against; arrays, objects and null have none. -/
def likeText? : Json → Option String
  | .text s => some s
  | .number n => some (String.ofList n.text)
  | .bool b => some (if b then "true" else "false")
  | _ => none

end Criteria.Json
