import Mathlib.Algebra.BigOperators.Group.List.Basic
import Mathlib.Algebra.GroupWithZero.Nat
import Criteria.Metrics

/-!
# What events add to the counters

Each event adds a fixed amount to each counter, so the counters after some events are sums of
amounts, as long as these sums are within the range of the counters.

## Main definitions

- `Counter`: the names of the counters
- `Event.amount`: what one event adds to a counter
- `Counter.total`: what several events add to a counter
- `Metrics.value`: the state of a counter

## Main statements

- `Metrics.value_count`: one event
- `Metrics.value_countAll`: several events
-/

namespace Criteria

/-- The counters of a store, by their names. -/
inductive Counter where
  | conditionsCompiled
  | compilationsRejected
  | parametersSkipped
  | queriesExecuted
  | rowsReturned
  | entitiesNotFound
deriving DecidableEq, Repr

/-- How much an event adds to a counter. -/
def Event.amount : Counter → Event → Nat
  | .conditionsCompiled, .compileComplete _ _ _ _ => 1
  | .parametersSkipped, .compileComplete _ _ skipped _ => skipped
  | .compilationsRejected, .compileRejected _ => 1
  | .queriesExecuted, .queryExecuted _ _ _ _ => 1
  | .rowsReturned, .queryExecuted _ _ _ rows => rows
  | .entitiesNotFound, .entityNotFound _ _ => 1
  | _, _ => 0

namespace Counter

/-- How much events add to a counter. -/
def total (i : Counter) (events : List Event) : Nat :=
  (events.map (Event.amount i)).sum

@[simp] theorem total_nil (i : Counter) : i.total [] = 0 := rfl

@[simp] theorem total_cons (i : Counter) (e : Event) (events : List Event) :
    i.total (e :: events) = e.amount i + i.total events :=
  List.sum_cons

@[simp] theorem total_append (i : Counter) (before after : List Event) :
    i.total (before ++ after) = i.total before + i.total after := by
  rw [total, List.map_append, List.sum_append]
  rfl

theorem total_eq_zero {i : Counter} {events : List Event} (h : ∀ e ∈ events, e.amount i = 0) :
    i.total events = 0 := by
  refine List.sum_eq_zero fun n hn => ?_
  obtain ⟨e, he, rfl⟩ := List.mem_map.mp hn
  exact h e he

end Counter

namespace Metrics

/-- The state of a counter. -/
def value (m : Metrics) : Counter → UInt64
  | .conditionsCompiled => m.conditionsCompiled
  | .compilationsRejected => m.compilationsRejected
  | .parametersSkipped => m.parametersSkipped
  | .queriesExecuted => m.queriesExecuted
  | .rowsReturned => m.rowsReturned
  | .entitiesNotFound => m.entitiesNotFound

theorem ext_value {m m' : Metrics} (h : ∀ i, m'.value i = m.value i) : m' = m := by
  obtain ⟨compiled, rejected, skipped, executed, rows, missing⟩ := m
  obtain ⟨compiled', rejected', skipped', executed', rows', missing'⟩ := m'
  rw [mk.injEq]
  exact ⟨h .conditionsCompiled, h .compilationsRejected, h .parametersSkipped,
    h .queriesExecuted, h .rowsReturned, h .entitiesNotFound⟩

theorem value_count (m : Metrics) (e : Event) (i : Counter) :
    (m.count e).value i = m.value i + .ofNat (e.amount i) := by
  cases e <;> cases i <;> simp [count, value, Event.amount, addConditionCompiled,
    addParametersSkipped, addCompilationRejected, addQueryExecuted, addRowsReturned,
    addEntityNotFound]

/-- A counter goes up by what the events add to it, around the end of its range. -/
theorem value_countAll (m : Metrics) (events : List Event) (i : Counter) :
    (m.countAll events).value i = m.value i + .ofNat (i.total events) := by
  induction events generalizing m with
  | nil => simp [countAll]
  | cons e rest ih =>
    have hrest : m.countAll (e :: rest) = (m.count e).countAll rest := rfl
    rw [hrest, ih, value_count, Counter.total_cons, UInt64.ofNat_add, UInt64.add_assoc]

theorem countAll_append (m : Metrics) (before after : List Event) :
    m.countAll (before ++ after) = (m.countAll before).countAll after :=
  List.foldl_append

theorem countAll_of_total_eq_zero {events : List Event} (h : ∀ i, Counter.total i events = 0)
    (m : Metrics) : m.countAll events = m := by
  refine ext_value fun i => ?_
  rw [value_countAll, h]
  exact UInt64.add_zero _

/-- Below the end of its range, a counter of a new registry is what the events add to it. -/
theorem toNat_value_ofEvents {events : List Event} {i : Counter}
    (h : i.total events < UInt64.size) : ((ofEvents events).value i).toNat = i.total events := by
  have hnew : ({} : Metrics).value i = 0 := by cases i <;> rfl
  rw [ofEvents, value_countAll, hnew, UInt64.zero_add, UInt64.toNat_ofNat_of_lt' h]

end Metrics

end Criteria
