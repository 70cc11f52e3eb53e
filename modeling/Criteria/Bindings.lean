import Criteria.Evaluation
import Criteria.Plan.Basic

/-!
# Bindings

A document has one binding for each way of choosing a row of each of its joins.

## Main definitions

- `rowsAt`: the rows of a relation
- `Traversal.extensions`: the bindings that a binding extends to along a traversal
- `Json.bindings?`: all bindings of a document, unless they exceed a limit

## Design notes

An array has one row for each element that is not null, and any other value but null is one
row. A traversal without rows ends the binding, or goes on without a row where its kind
keeps unmatched documents.
-/

namespace Criteria

/-- What may go wrong in the execution of a plan. -/
inductive ExecutionError where
  /-- A pattern that cannot be used. -/
  | unusablePattern (pattern : String) (reason : String)
  /-- A document with more bindings than the limit. -/
  | tooManyBindings (limit : Nat)
deriving DecidableEq, Repr

namespace ExecutionError

def code : ExecutionError → String
  | .unusablePattern _ _ => "EXEC_INVALID_PATTERN"
  | .tooManyBindings _ => "EXEC_BINDING_LIMIT"

def message : ExecutionError → String
  | .unusablePattern pattern reason => s!"Invalid LIKE pattern '{pattern}': {reason}"
  | .tooManyBindings limit => s!"Document expands into more than {limit} join bindings"

def display (e : ExecutionError) : String :=
  s!"{e.code}: {e.message}"

end ExecutionError

/-- The rows of a relation, given by the value at its key. -/
def rowsOf : Option Json → List Json
  | none => []
  | some .null => []
  | some (.array items) => items.filter fun item => !item.isNull
  | some value => [value]

/-- The rows under a key of a row that may be missing. -/
def rowsAt (base : Option Json) (key : String) : List Json :=
  rowsOf (base.bind (·.get? key))

namespace Traversal

/-- What a traversal starts from under a binding of the earlier ones. -/
def base? (t : Traversal) (document : Json) (binding : Binding) : Option Json :=
  match t.parent with
  | none => some document
  | some parent => binding[parent]?.join

/-- The rows of a traversal under a binding of the earlier ones. -/
def rows (t : Traversal) (document : Json) (binding : Binding) : List Json :=
  rowsAt (t.base? document binding) t.key

/-- The bindings that a binding extends to along a traversal. -/
def extensions (t : Traversal) (document : Json) (binding : Binding) : List Binding :=
  match t.rows document binding with
  | [] => if t.kind.keepsUnmatched then [binding ++ [none]] else []
  | rows => rows.map fun row => binding ++ [some row]

/-- The extensions of several bindings along a traversal, after `count` that are there
already. The limit is looked at after each binding that has rows. -/
def extendAll (limit : Nat) (document : Json) (t : Traversal) (count : Nat) :
    List Binding → Except ExecutionError (List Binding)
  | [] => .ok []
  | binding :: rest =>
    let added := t.extensions document binding
    let reached := count + added.length
    if limit < reached && !(t.rows document binding).isEmpty then
      .error (.tooManyBindings limit)
    else do
      let others ← extendAll limit document t reached rest
      return added ++ others

end Traversal

/-- The extensions of bindings along traversals, in preorder. -/
def extendAlong (limit : Nat) (document : Json) :
    List Traversal → List Binding → Except ExecutionError (List Binding)
  | [], bindings => .ok bindings
  | t :: rest, bindings => do
    let extended ← t.extendAll limit document 0 bindings
    extendAlong limit document rest extended

/-- The bindings of a document along traversals. Without traversals it has one, which is
empty. -/
def Json.bindings? (document : Json) (traversals : List Traversal) (limit : Nat) :
    Except ExecutionError (List Binding) :=
  extendAlong limit document traversals [[]]

end Criteria
