import Criteria.Bindings

/-!
# Bindings without a limit

The limit on bindings decides whether there is an answer, and never what the answer is.

## Main definitions

- `Traversal.choices`: what a binding can be extended with along a traversal
- `Json.allBindings`: all bindings of a document

## Main statements

- `Json.eq_allBindings`: the bindings within a limit are all bindings
-/

namespace Criteria

namespace Traversal

/-- What a traversal can be bound to: its rows in their order, or nothing where it has no rows
and its kind keeps unmatched documents. -/
def choices (t : Traversal) (document : Json) (binding : Binding) : List (Option Json) :=
  match t.rows document binding with
  | [] => if t.kind.keepsUnmatched then [none] else []
  | rows => rows.map some

theorem extensions_eq (t : Traversal) (document : Json) (binding : Binding) :
    t.extensions document binding =
      (t.choices document binding).map fun row => binding ++ [row] := by
  unfold extensions choices
  cases hrows : t.rows document binding with
  | nil => cases t.kind.keepsUnmatched <;> rfl
  | cons row rest => simp

theorem eq_flatMap_of_extendAll {limit count : Nat} {document : Json} {t : Traversal}
    {bindings extended : List Binding}
    (h : t.extendAll limit document count bindings = .ok extended) :
    extended = bindings.flatMap (t.extensions document) := by
  induction bindings generalizing count extended with
  | nil =>
    cases h
    rfl
  | cons binding rest ih =>
    simp only [extendAll] at h
    split at h
    · cases h
    · cases hrest : t.extendAll limit document
        (count + (t.extensions document binding).length) rest with
      | error e =>
        rw [hrest] at h
        cases h
      | ok others =>
        rw [hrest] at h
        cases h
        rw [List.flatMap_cons, ← ih hrest]

end Traversal

namespace Json

/-- All bindings of a document along traversals, however many there are. -/
def allBindings (document : Json) (ts : List Traversal) : List Binding :=
  ts.foldl (fun bindings t => bindings.flatMap (t.extensions document)) [[]]

theorem allBindings_concat (document : Json) (ts : List Traversal) (t : Traversal) :
    document.allBindings (ts ++ [t]) =
      (document.allBindings ts).flatMap (t.extensions document) := by
  rw [allBindings, List.foldl_append]
  rfl

end Json

theorem eq_foldl_of_extendAlong {limit : Nat} {document : Json} {ts : List Traversal}
    {bindings extended : List Binding}
    (h : extendAlong limit document ts bindings = .ok extended) :
    extended = ts.foldl (fun bindings t => bindings.flatMap (t.extensions document)) bindings := by
  induction ts generalizing bindings with
  | nil =>
    cases h
    rfl
  | cons t rest ih =>
    simp only [extendAlong] at h
    cases ht : t.extendAll limit document 0 bindings with
    | error e =>
      rw [ht] at h
      cases h
    | ok next =>
      rw [ht] at h
      rw [List.foldl_cons, ← Traversal.eq_flatMap_of_extendAll ht]
      exact ih h

/-- The bindings within a limit are all there are. -/
theorem Json.eq_allBindings {document : Json} {ts : List Traversal} {limit : Nat}
    {bindings : List Binding} (h : document.bindings? ts limit = .ok bindings) :
    bindings = document.allBindings ts :=
  eq_foldl_of_extendAlong h

end Criteria
