import Criteria.QueryError

/-!
# Events

What a query reports about itself while it runs.

## Main definitions

- `EventKind`: the kinds of events, with their names
- `Event`: an event with its details
- `Event.toJson`: the event as a log entry
-/

namespace Criteria

/-- The kinds of events, in order. -/
inductive EventKind where
  | configLoaded
  | compileComplete
  | compileRejected
  | parameterSkipped
  | joinMerged
  | queryExecuted
  | entityNotFound
  | requestRejected
deriving DecidableEq, Repr

namespace EventKind

def all : List EventKind :=
  [configLoaded, compileComplete, compileRejected, parameterSkipped, joinMerged, queryExecuted,
    entityNotFound, requestRejected]

def name : EventKind → String
  | configLoaded => "CONFIG_LOADED"
  | compileComplete => "COMPILE_COMPLETE"
  | compileRejected => "COMPILE_REJECTED"
  | parameterSkipped => "PARAMETER_SKIPPED"
  | joinMerged => "JOIN_MERGED"
  | queryExecuted => "QUERY_EXECUTED"
  | entityNotFound => "ENTITY_NOT_FOUND"
  | requestRejected => "REQUEST_REJECTED"

/-- Events of this kind report a failure. -/
def isFailure : EventKind → Bool
  | compileRejected | entityNotFound | requestRejected => true
  | _ => false

end EventKind

/-- An event with its details. -/
inductive Event where
  | configLoaded (path : String) (defaultPageSize maxPageSize : Nat)
  | compileComplete (comparisons traversals skipped : Nat) (fetches : Bool)
  | compileRejected (e : ConditionError)
  | parameterSkipped (path : String) (operator : Operator)
  | joinMerged (identity : JoinIdentity)
  | queryExecuted (entity : String) (scanned bindings rows : Nat)
  | entityNotFound (entity : String) (criteria : String)
  | requestRejected (entity : String) (e : ExecutionError)
deriving DecidableEq, Repr

namespace Event

def kind : Event → EventKind
  | configLoaded _ _ _ => .configLoaded
  | compileComplete _ _ _ _ => .compileComplete
  | compileRejected _ => .compileRejected
  | parameterSkipped _ _ => .parameterSkipped
  | joinMerged _ => .joinMerged
  | queryExecuted _ _ _ _ => .queryExecuted
  | entityNotFound _ _ => .entityNotFound
  | requestRejected _ _ => .requestRejected

/-- How much an event matters. -/
def level : Event → String
  | parameterSkipped _ _ | joinMerged _ => "TRACE"
  | configLoaded _ _ _ | compileComplete _ _ _ _ | queryExecuted _ _ _ _ => "DEBUG"
  | compileRejected _ | entityNotFound _ _ | requestRejected _ _ => "WARN"

/-- The text of an event; a rejection has the wording of its error. -/
def message : Event → String
  | configLoaded _ _ _ => "config loaded"
  | compileComplete _ _ _ _ => "condition compiled"
  | compileRejected e => e.message
  | parameterSkipped _ _ => "null value, parameter skipped"
  | joinMerged _ => "merged duplicate join"
  | queryExecuted _ _ _ _ => "query executed"
  | entityNotFound _ _ => "entity not found"
  | requestRejected _ e => e.message

/-- The details of an event, as fields. -/
def details : Event → List (String × Json)
  | configLoaded path defaultPageSize maxPageSize =>
    [("path", .text path), ("default_page_size", .ofNat defaultPageSize),
     ("max_page_size", .ofNat maxPageSize)]
  | compileComplete comparisons traversals skipped fetches =>
    [("comparisons", .ofNat comparisons), ("traversals", .ofNat traversals),
     ("skipped", .ofNat skipped), ("fetches", .bool fetches)]
  | compileRejected e => [("code", .text e.code)]
  | parameterSkipped path operator => [("path", .text path), ("operator", .text operator.name)]
  | joinMerged identity => [("key", .text identity.key), ("kind", .text identity.kind.name)]
  | queryExecuted entity scanned bindings rows =>
    [("entity", .text entity), ("scanned", .ofNat scanned), ("bindings", .ofNat bindings),
     ("rows", .ofNat rows)]
  | entityNotFound entity criteria => [("entity", .text entity), ("criteria", .text criteria)]
  | requestRejected entity e => [("entity", .text entity), ("code", .text e.code)]

/-- The event as a log entry. -/
def toJson (e : Event) : Json :=
  .ofFields <|
    [("level", .text e.level), ("message", .text e.message), ("event", .text e.kind.name)] ++
      e.details

end Event

/-- A computation that reports events. -/
abbrev Reporting := Logged Event

/-- Reports the merging of joins. -/
def Logged.reportingMerges {ε α : Type} (x : Logged JoinIdentity ε α) : Reporting ε α :=
  ⟨x.outcome, x.entries.map .joinMerged⟩

end Criteria
