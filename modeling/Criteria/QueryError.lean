import Criteria.Bindings

/-!
# Errors of queries

## Main definitions

- `QueryError`: what may go wrong in a query against a store
- `QueryError.code`, `QueryError.message`: the stable code and the wording
-/

namespace Criteria

/-- What may go wrong in a query against a store. -/
inductive QueryError where
  | invalidIdentifier (detail : String)
  /-- A look-up of one document found none. -/
  | notFound (entity : String) (criteria : String)
  | invalidPage (detail : String)
  | invalidAggregate (detail : String)
  | invalidDocuments (detail : String)
  | condition (e : ConditionError)
  | execution (e : ExecutionError)
deriving DecidableEq, Repr

namespace QueryError

def code : QueryError → String
  | .invalidIdentifier _ => "REPO_INVALID_IDENTIFIER"
  | .notFound _ _ => "REPO_NOT_FOUND"
  | .invalidPage _ => "REPO_INVALID_PAGE"
  | .invalidAggregate _ => "REPO_INVALID_AGGREGATE"
  | .invalidDocuments _ => "REPO_INVALID_DOCUMENTS"
  | .condition e => e.code
  | .execution e => e.code

def message : QueryError → String
  | .invalidIdentifier detail => s!"Invalid identifier: {detail}"
  | .notFound entity criteria => s!"Entity not found: {entity} with {criteria}"
  | .invalidPage detail => s!"Invalid page request: {detail}"
  | .invalidAggregate detail => s!"Invalid aggregate: {detail}"
  | .invalidDocuments detail => s!"Invalid documents: {detail}"
  | .condition e => e.display
  | .execution e => e.display

/-- The error says that a document that should be there is not. -/
def isNotFound : QueryError → Bool
  | .notFound _ _ => true
  | _ => false

end QueryError

end Criteria
