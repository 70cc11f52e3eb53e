import Criteria.Evaluator

/-!
# Selections

The result of a plan over documents. A document is returned once for each of its bindings
under which the predicate is true, or once at most if the plan is distinct.

## Main definitions

- `Selection`: the documents found, and how much was looked at
- `Plan.satisfied`: how many bindings a document has, and how many of them are true
- `Plan.select`: the selection of a list of documents, with one evaluator for all of them
- `Plan.accepts`: a document has a true binding
-/

namespace Criteria

/-- The number of bindings that a document may have, unless another limit is set. -/
def defaultBindingLimit : Nat := 10000

/-- The result of a plan over documents. -/
structure Selection where
  /-- In the order of the documents. -/
  documents : List Json := []
  /-- The number of documents looked at. -/
  scanned : Nat := 0
  /-- The number of bindings looked at. -/
  evaluated : Nat := 0
deriving Repr

def Selection.toJson (s : Selection) : Json :=
  .ofFields
    [("documents", .array s.documents), ("scanned_count", .ofNat s.scanned),
     ("bindings_evaluated", .ofNat s.evaluated)]

namespace Plan

/-- The number of bindings of a document, and of those under which the predicate is
true. -/
def satisfied (engine : PatternEngine) (p : Plan) (limit : Nat) (document : Json) :
    Evaluating (Nat × Nat) := do
  let bindings ← document.bindings? p.traversals limit
  let satisfied ← Evaluator.countTrue engine p.predicate document 0 bindings
  return (bindings.length, satisfied)

/-- How often a document with a number of true bindings is returned. -/
def copies (p : Plan) (satisfied : Nat) : Nat :=
  if p.distinct then min satisfied 1 else satisfied

/-- The selection of a list of documents, added to the one so far. -/
def selectAfter (engine : PatternEngine) (p : Plan) (limit : Nat) (found : List Json)
    (scanned evaluated : Nat) : List Json → Evaluating Selection
  | [] => return ⟨found.reverse, scanned, evaluated⟩
  | document :: rest => do
    let (bindings, satisfied) ← p.satisfied engine limit document
    selectAfter engine p limit (List.replicate (p.copies satisfied) document ++ found)
      (scanned + 1) (evaluated + bindings) rest

/-- The selection of a list of documents with an engine for patterns. A limit of zero counts
as one. The first document with too many bindings gives the error. -/
def selectWith (engine : PatternEngine) (p : Plan) (limit : Nat) (documents : List Json) :
    Except ExecutionError Selection :=
  (p.selectAfter engine (max limit 1) [] 0 0 documents).run' {}

/-- A document has a binding under which the predicate is true. -/
def acceptsWith (engine : PatternEngine) (p : Plan) (limit : Nat) (document : Json) :
    Except ExecutionError Bool := do
  let (_, satisfied) ← (p.satisfied engine (max limit 1) document).run' {}
  return satisfied > 0

/-- The selection of a list of documents. -/
def select (p : Plan) (limit : Nat) (documents : List Json) :
    Except ExecutionError Selection :=
  p.selectWith .standard limit documents

/-- A document has a binding under which the predicate is true. -/
def accepts (p : Plan) (limit : Nat) (document : Json) : Except ExecutionError Bool :=
  p.acceptsWith .standard limit document

end Plan

end Criteria
