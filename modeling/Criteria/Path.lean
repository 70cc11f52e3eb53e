import Criteria.ConditionError
import Criteria.Text.Blank
import Criteria.Text.Split

/-!
# Paths

Names joined by dots lead through nested objects or relations.

## Main definitions

- `Path.parts`: the texts between the dots
- `Path.segments`: the same, refused if one of them is blank
-/

namespace Criteria.Path

/-- The texts between the dots. -/
def parts (path : String) : List String :=
  Text.split '.' path

/-- No part is blank. -/
def isValid (path : String) : Bool :=
  (parts path).all fun part => !Text.isBlank part

/-- The segments of a path, as they stand; a path with a blank segment is refused. -/
def segments (path : String) : Except ConditionError (List String) :=
  if isValid path then .ok (parts path) else .error (.emptySegment path)

theorem parts_ne_nil (path : String) : parts path ≠ [] := by
  rw [parts, Text.split, Ne, List.map_eq_nil_iff]
  exact Text.splitChars_ne_nil '.' path.toList

theorem segments_eq_ok_iff {path : String} {names : List String} :
    segments path = .ok names ↔ isValid path = true ∧ names = parts path := by
  unfold segments
  split
  · rename_i h
    simp only [h, true_and, Except.ok.injEq]
    exact eq_comm
  · rename_i h
    simp [h]

end Criteria.Path
