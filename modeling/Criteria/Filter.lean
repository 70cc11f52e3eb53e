import Criteria.Criterion

/-!
# Filters

A filter holds criteria that all have to be met, and may hold a group of alternatives of
which one has to be met as well.

## Main definitions

- `Filter`: criteria and an optional group of alternatives, itself a filter
- `Filter.active`: the criteria that are not skipped
- `Filter.check`: whether all criteria are well formed, at every depth
- `Filter.add`, `Filter.addBetween`, `Filter.addNumericRange`, `Filter.addDateRange`,
  `Filter.modifyOrGroup`: building a filter
- `Filter.toJson`, `Filter.reader`: filters as documents

## Design notes

A group of alternatives may hold a group in turn. That inner group is carried along and
checked, and takes no part in a query.
-/

namespace Criteria

/-- Criteria that all have to be met, and a group of alternatives. -/
structure Filter where
  criteria : List Criterion := []
  orGroup : Option Filter := none
deriving Repr

namespace Filter

instance : Inhabited Filter := ⟨{}⟩

/-- The criteria that are not skipped. -/
def active (f : Filter) : List Criterion :=
  f.criteria.filter fun c => !c.isSkipped

/-- The criteria of the group of alternatives. -/
def alternatives (f : Filter) : List Criterion :=
  match f.orGroup with
  | some group => group.criteria
  | none => []

/-- No criteria at any depth. -/
def isEmpty : Filter → Bool
  | ⟨criteria, none⟩ => criteria.isEmpty
  | ⟨criteria, some group⟩ => criteria.isEmpty && group.isEmpty

/-- Every criterion is well formed, at every depth; the first that is not gives the
error. -/
def check : Filter → Except ConditionError Unit
  | ⟨criteria, none⟩ => criteria.forM Criterion.check
  | ⟨criteria, some group⟩ => do
    criteria.forM Criterion.check
    group.check

/-- Adds a criterion after the others. -/
def push (f : Filter) (c : Criterion) : Filter :=
  { f with criteria := f.criteria ++ [c] }

/-- Adds the criterion with the given parts, unchecked. -/
def add (f : Filter) (path : String) (value : Value) (operator : Operator) : Filter :=
  f.push ⟨path, value, operator⟩

/-- The value of a range: null if both bounds are null. -/
def bounds (lower upper : Value) : Value :=
  if lower.isNull && upper.isNull then .null else .pair lower upper

def addBetween (f : Filter) (path : String) (lower upper : Value) : Filter :=
  f.add path (bounds lower upper) .between

def addNotBetween (f : Filter) (path : String) (lower upper : Value) : Filter :=
  f.add path (bounds lower upper) .notBetween

/-- Adds a lower and an upper bound for numbers, each skipped if it is null. -/
def addNumericRange (f : Filter) (path : String) (lower upper : Value) : Filter :=
  (f.add path lower .greaterEquals).add path upper .lessEquals

/-- Adds a lower and an upper bound for points in time, each skipped if it is null. -/
def addDateRange (f : Filter) (path : String) (lower upper : Value) : Filter :=
  (f.add path lower .greaterEqualsTime).add path upper .lessEqualsTime

/-- Replaces the group of alternatives. -/
def setOrGroup (f : Filter) (group : Filter) : Filter :=
  { f with orGroup := some group }

/-- The group of alternatives, empty if there is none yet. -/
def orGroupOrEmpty (f : Filter) : Filter :=
  f.orGroup.getD {}

/-- Changes the group of alternatives, which is created if there is none yet. -/
def modifyOrGroup (f : Filter) (change : Filter → Filter) : Filter :=
  f.setOrGroup (change f.orGroupOrEmpty)

/-- The filter as a document. -/
def toJson : Filter → Json
  | ⟨criteria, none⟩ => .ofFields [("parameters", .array (criteria.map Criterion.toJson))]
  | ⟨criteria, some group⟩ =>
    .ofFields
      [("parameters", .array (criteria.map Criterion.toJson)), ("or_group", group.toJson)]

/-- A criterion in messages: its JSON with the fields in the declared order. -/
def listedCriterion (c : Criterion) : List Char :=
  '{' :: (Json.quote "path" ++ ':' :: (Json.quote c.path ++ ',' ::
    (Json.quote "value" ++ ':' :: (c.value.toJson.render ++ ',' ::
      (Json.quote "operator" ++ ':' :: (Json.quote c.operator.name ++ ['}']))))))

/-- Criteria in messages: a JSON array. -/
def listedCriteria (cs : List Criterion) : List Char :=
  '[' :: (Text.joinChars [','] (cs.map listedCriterion) ++ [']'])

/-- A filter in messages: its JSON with the fields in the declared order. -/
def listed : Filter → List Char
  | ⟨criteria, none⟩ =>
    '{' :: (Json.quote "parameters" ++ ':' :: (listedCriteria criteria ++ ['}']))
  | ⟨criteria, some group⟩ =>
    '{' :: (Json.quote "parameters" ++ ':' :: (listedCriteria criteria ++ ',' ::
      (Json.quote "or_group" ++ ':' :: (listed group ++ ['}']))))

/-- The spellings of the fields, in the declared order. -/
def fieldNames : List (List String) :=
  [["parameters"], ["or_group", "or_filter"]]

/-- Reads a filter; both of its fields may be missing. -/
def read {ω : Type} : Nat → Tree → Logged ω Mismatch Filter
  | 0, tree => Reader.record fieldNames (fun _ _ _ => .fail .tooDeep) {} 0 tree
  | depth + 1, tree =>
    Reader.record fieldNames
      (fun
        | 0, _, part => do
          let criteria ← Reader.list Criterion.reader depth part
          return fun f => { f with criteria }
        | _, _, part => do
          let orGroup ← Reader.optional (fun _ part => read depth part) depth part
          return fun f => { f with orGroup })
      {} (depth + 1) tree

/-- The reader of filters. -/
def reader {ω : Type} : Reader ω Filter := read

end Filter

end Criteria
