import Criteria.Event

/-!
# Metrics

Counters of what a store was asked to do. They are sums over the events of its queries.

## Main definitions

- `Metrics`: the counters, which wrap around at 64 bits
- `Metrics.count`: one event counted
- `Metrics.ofEvents`: the counters after a list of events
-/

namespace Criteria

/-- The counters of a store. -/
structure Metrics where
  conditionsCompiled : UInt64 := 0
  compilationsRejected : UInt64 := 0
  parametersSkipped : UInt64 := 0
  queriesExecuted : UInt64 := 0
  rowsReturned : UInt64 := 0
  entitiesNotFound : UInt64 := 0
deriving DecidableEq, Repr

namespace Metrics

def addConditionCompiled (m : Metrics) : Metrics :=
  { m with conditionsCompiled := m.conditionsCompiled + 1 }

def addCompilationRejected (m : Metrics) : Metrics :=
  { m with compilationsRejected := m.compilationsRejected + 1 }

def addParametersSkipped (m : Metrics) (count : Nat) : Metrics :=
  { m with parametersSkipped := m.parametersSkipped + .ofNat count }

def addQueryExecuted (m : Metrics) : Metrics :=
  { m with queriesExecuted := m.queriesExecuted + 1 }

def addRowsReturned (m : Metrics) (count : Nat) : Metrics :=
  { m with rowsReturned := m.rowsReturned + .ofNat count }

def addEntityNotFound (m : Metrics) : Metrics :=
  { m with entitiesNotFound := m.entitiesNotFound + 1 }

/-- Counts one event. -/
def count (m : Metrics) : Event → Metrics
  | .compileComplete _ _ skipped _ => m.addConditionCompiled.addParametersSkipped skipped
  | .compileRejected _ => m.addCompilationRejected
  | .queryExecuted _ _ _ rows => m.addQueryExecuted.addRowsReturned rows
  | .entityNotFound _ _ => m.addEntityNotFound
  | _ => m

/-- The counters after further events. -/
def countAll (m : Metrics) (events : List Event) : Metrics :=
  events.foldl count m

/-- The counters after a list of events. -/
def ofEvents (events : List Event) : Metrics :=
  countAll {} events

def toJson (m : Metrics) : Json :=
  .ofFields
    [("conditions_compiled", .ofNat m.conditionsCompiled.toNat),
     ("compilations_rejected", .ofNat m.compilationsRejected.toNat),
     ("parameters_skipped", .ofNat m.parametersSkipped.toNat),
     ("queries_executed", .ofNat m.queriesExecuted.toNat),
     ("rows_returned", .ofNat m.rowsReturned.toNat),
     ("entities_not_found", .ofNat m.entitiesNotFound.toNat)]

end Metrics

end Criteria
