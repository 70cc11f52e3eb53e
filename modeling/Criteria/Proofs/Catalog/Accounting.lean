import Mathlib.Algebra.Order.BigOperators.Group.List
import Mathlib.Algebra.Order.Group.Nat
import Criteria.Proofs.Catalog.Calls

/-!
# The counters account for the queries

From a new registry on, the counters are an exact account of what queries came to: how many of
them reached compilation, how many were executed, how many rows they selected in all, and how
many look-ups found nothing. A query that is refused before that leaves them as they are.

## Main definitions

- `Query`: a call to a catalog
- `Query.plan?`, `Query.rows?`: how far a query gets
- `Metrics.after`: the counters after queries
- `Metrics.Accounts`: counters that are an account of queries

## Main statements

- `Query.total_answer`: what one query adds to a counter
- `Metrics.toNat_value_after`: what a run of queries adds to a counter
- `Metrics.accounts_after`: the account
- `Metrics.exact_account`: the account, and what becomes of the queries it is of
-/

namespace Criteria

/-- A call to a catalog, whose documents may not be those of an earlier call. -/
structure Query where
  catalog : Catalog
  Answer : Type
  call : Call Answer

namespace Query

def answer (q : Query) : Reporting QueryError q.Answer :=
  q.call.answer q.catalog

def request (q : Query) : Request :=
  q.call.request q.catalog

/-- The query does not reach compilation. -/
def isRefused (q : Query) : Bool :=
  q.request.isRefused q.catalog.store.settings.pages

/-- The plan of the condition, if the query is not refused and the condition compiles. -/
def plan? (q : Query) : Option Plan :=
  if q.isRefused then none else (q.request.full.compile q.request.purpose).toOption

/-- All rows that the condition selects, on whatever page, if its execution comes to an end. -/
def rows? (q : Query) : Option (List Json) :=
  if q.isRefused then none
  else (q.catalog.store.run q.request.full q.request.purpose).outcome.toOption

/-- The answer is that nothing was found. -/
def isNotFound (q : Query) : Bool :=
  match q.answer.outcome with
  | .ok _ => false
  | .error e => e.isNotFound

/-- What a query adds to a counter. -/
def amount (q : Query) : Counter → Nat
  | .conditionsCompiled => (q.plan?.map fun _ => 1).getD 0
  | .compilationsRejected => if !q.isRefused && q.plan?.isNone then 1 else 0
  | .parametersSkipped => (q.plan?.map Plan.skipped).getD 0
  | .queriesExecuted => (q.rows?.map fun _ => 1).getD 0
  | .rowsReturned => (q.rows?.map List.length).getD 0
  | .entitiesNotFound => if q.isNotFound then 1 else 0

end Query

theorem Condition.total_compileEvents (c : Condition) (purpose : Purpose) (i : Counter) :
    i.total (c.compileEvents purpose) = (compileEvent (c.compile purpose)).amount i := by
  have hskipped : i.total ((skippedBefore c.consulted).map fun k =>
      .parameterSkipped k.path k.operator) = 0 := by
    refine Counter.total_eq_zero fun event hevent => ?_
    obtain ⟨k, -, rfl⟩ := List.mem_map.mp hevent
    cases i <;> rfl
  rw [compileEvents, Counter.total_append, hskipped, Counter.total_cons, Counter.total_nil,
    Nat.zero_add, Nat.add_zero]

namespace Store

variable {s : Store} {c : Condition} {purpose : Purpose}

theorem total_run_of_compile_eq_error {e : ConditionError} (h : c.compile purpose = .error e)
    (i : Counter) : i.total (s.run c purpose).entries = (Event.compileRejected e).amount i := by
  have hplan : ((c.compileReporting purpose).mapError QueryError.condition).outcome =
      .error (.condition e) := congrArg (Except.mapError QueryError.condition) h
  have hevents := c.total_compileEvents purpose i
  rw [h] at hevents
  rw [run, Logged.entries_bind_error hplan]
  exact hevents

theorem total_run_of_compile_eq_ok {p : Plan} (h : c.compile purpose = .ok p) (i : Counter) :
    i.total (s.run c purpose).entries = (Condition.compileEvent (.ok p)).amount i +
      match (s.run c purpose).outcome with
      | .ok rows => (Event.queryExecuted s.entity 0 0 rows.length).amount i
      | .error _ => 0 := by
  have hplan : ((c.compileReporting purpose).mapError QueryError.condition).outcome = .ok p :=
    congrArg (Except.mapError QueryError.condition) h
  have hevents := c.total_compileEvents purpose i
  rw [h] at hevents
  have houtcome := outcome_run_of_compile_eq_ok (s := s) h
  rw [run, Logged.entries_bind_ok hplan, Counter.total_append, ← run]
  refine congr (congrArg _ hevents) ?_
  rw [houtcome, execute]
  cases p.select s.settings.bindingLimit s.documents with
  | error e => cases i <;> rfl
  | ok found => cases i <;> rfl

end Store

namespace Query

variable {q : Query}

theorem plan?_of_isRefused (h : q.isRefused = true) : q.plan? = none := by
  rw [plan?, h, if_pos rfl]

theorem rows?_of_isRefused (h : q.isRefused = true) : q.rows? = none := by
  rw [rows?, h, if_pos rfl]

theorem plan?_eq (h : q.isRefused = false) :
    q.plan? = (q.request.full.compile q.request.purpose).toOption := by
  rw [plan?, h]
  rfl

theorem rows?_eq (h : q.isRefused = false) : q.rows? =
    (q.catalog.store.run q.request.full q.request.purpose).outcome.toOption := by
  rw [rows?, h]
  rfl

theorem missing_answer (q : Query) (i : Counter) : i.missing q.answer.outcome =
    if q.isNotFound then if i = .entitiesNotFound then 1 else 0 else 0 := by
  rw [isNotFound]
  cases q.answer.outcome with
  | ok a => rfl
  | error e => cases e <;> rfl

theorem isNotFound_of_isRefused (h : q.isRefused = true) : q.isNotFound = false := by
  have hmissing := ((q.call.conforms_answer q.catalog).refuses h).missing .entitiesNotFound
  have hfound := q.missing_answer .entitiesNotFound
  cases hq : q.isNotFound with
  | false => rfl
  | true =>
    rw [hq, answer, hmissing] at hfound
    cases hfound

/-- A query adds to each counter what it comes to, and nothing else. -/
theorem total_answer (q : Query) (i : Counter) : i.total q.answer.entries = q.amount i := by
  have hconforms := q.call.conforms_answer q.catalog
  cases hrefused : q.isRefused with
  | true =>
    have htotal : i.total q.answer.entries = 0 := (hconforms.refuses hrefused).total i
    rw [htotal]
    cases i <;> simp [amount, hrefused, isNotFound_of_isRefused, plan?_of_isRefused,
      rows?_of_isRefused]
  | false =>
    have hplan := plan?_eq hrefused
    have hrows := rows?_eq hrefused
    have htotal : i.total q.answer.entries = _ := (hconforms.answers hrefused).total i
    rw [htotal]
    change i.total (q.catalog.store.run q.request.full q.request.purpose).entries +
      i.missing q.answer.outcome = _
    rw [missing_answer]
    cases hcompile : q.request.full.compile q.request.purpose with
    | error e =>
      have hrun : (q.catalog.store.run q.request.full q.request.purpose).outcome =
          .error (.condition e) := by
        rw [Store.outcome_run, hcompile]
        rfl
      rw [hcompile] at hplan
      rw [hrun] at hrows
      rw [Store.total_run_of_compile_eq_error hcompile]
      cases i <;> simp [amount, Event.amount, hrefused, hplan, hrows, Except.toOption]
    | ok p =>
      rw [hcompile] at hplan
      rw [Store.total_run_of_compile_eq_ok hcompile]
      cases hrun : (q.catalog.store.run q.request.full q.request.purpose).outcome with
      | error e =>
        rw [hrun] at hrows
        cases i <;> simp [amount, Event.amount, Condition.compileEvent, hrefused, hplan, hrows,
          Except.toOption]
      | ok rows =>
        rw [hrun] at hrows
        cases i <;> simp [amount, Event.amount, Condition.compileEvent, hrefused, hplan, hrows,
          Except.toOption]

/-- Only what has been compiled is executed. -/
theorem amount_queriesExecuted_le (q : Query) :
    q.amount .queriesExecuted ≤ q.amount .conditionsCompiled := by
  cases hrefused : q.isRefused with
  | true => simp [amount, rows?_of_isRefused hrefused]
  | false =>
    rw [amount, amount, plan?_eq hrefused, rows?_eq hrefused]
    cases hcompile : q.request.full.compile q.request.purpose with
    | error e =>
      rw [Store.outcome_run, hcompile]
      exact Nat.le_refl 0
    | ok p =>
      cases (q.catalog.store.run q.request.full q.request.purpose).outcome with
      | error e => exact Nat.zero_le 1
      | ok rows => exact Nat.le_refl 1

/-- A compilation either succeeds or is rejected. -/
theorem amount_compiled_add_rejected (q : Query) :
    q.amount .conditionsCompiled + q.amount .compilationsRejected =
      if !q.isRefused then 1 else 0 := by
  rw [amount, amount]
  cases hrefused : q.isRefused with
  | true => simp [plan?_of_isRefused hrefused]
  | false => cases q.plan? <;> rfl

/-- What is checked before anything is compiled: identifiers, paths of joins, and pages. -/
theorem isRefused_iff : q.isRefused = true ↔
    (∃ id, q.request.identifier = some id ∧ id.isNull = true) ∨
    (∃ path ∈ q.request.paths, Path.isValid path = false) ∨
    ∃ page detail, q.request.page = some page ∧
      q.catalog.store.settings.pages.resolve page = .error (.invalidPage detail) := by
  have hpage (page : Option PageRequest) :
      (!(q.catalog.store.settings.pages.resolve page).isOk) = true ↔
        ∃ detail, q.catalog.store.settings.pages.resolve page = .error (.invalidPage detail) := by
    cases hresolve : q.catalog.store.settings.pages.resolve page with
    | ok r => simp [Except.isOk, Except.toBool]
    | error e =>
      obtain ⟨detail, rfl⟩ := PageLimits.exists_of_resolve_eq_error hresolve
      simp [Except.isOk, Except.toBool]
  simp only [isRefused, Request.isRefused, Bool.or_eq_true, Option.any_eq_true, hpage,
    Bool.not_eq_true', List.all_eq_false, Bool.not_eq_true, or_assoc, exists_and_left]

/-- A query that is not refused ends in one of three ways. -/
theorem answer_of_not_isRefused (h : q.isRefused = false) :
    (q.plan? = none ∧ q.rows? = none ∧ ∃ e, q.answer.outcome = .error (.condition e)) ∨
    (q.plan?.isSome ∧ q.rows? = none ∧ q.answer.outcome =
      .error (.execution (.tooManyBindings (max q.catalog.store.settings.bindingLimit 1)))) ∨
    (q.plan?.isSome ∧ q.rows?.isSome ∧
      ∀ e, q.answer.outcome = .error e → e.isAboutRows = true) := by
  have hanswers := (q.call.conforms_answer q.catalog).answers h
  rw [plan?_eq h, rows?_eq h]
  cases hrun : (q.catalog.store.run q.request.full q.request.purpose).outcome with
  | error e =>
    have hfails := hanswers.fails e hrun
    rcases Store.exists_of_outcome_run_eq_error hrun with ⟨e', hcompile, rfl⟩ | ⟨p, hcompile, rfl⟩
    · rw [hcompile]
      exact .inl ⟨rfl, rfl, e', hfails⟩
    · rw [hcompile]
      exact .inr (.inl ⟨rfl, rfl, hfails⟩)
  | ok rows =>
    cases hcompile : q.request.full.compile q.request.purpose with
    | error e =>
      rw [Store.outcome_run, hcompile] at hrun
      cases hrun
    | ok p => exact .inr (.inr ⟨rfl, rfl, fun e he => hanswers.error rows e hrun he⟩)

theorem error_of_not_isRefused (h : q.isRefused = false) {e : QueryError}
    (he : q.answer.outcome = .error e) :
    (∃ e', e = .condition e') ∨ (∃ e', e = .execution e') ∨ e.isAboutRows = true := by
  rcases answer_of_not_isRefused h with ⟨-, -, e', h'⟩ | ⟨-, -, h'⟩ | ⟨-, -, hrows⟩
  · exact .inl ⟨e', Except.error.inj (he.symm.trans h')⟩
  · exact .inr (.inl ⟨_, Except.error.inj (he.symm.trans h')⟩)
  · exact .inr (.inr (hrows e he))

theorem isRefused_of_answer (h : (∃ detail, q.answer.outcome = .error (.invalidPage detail)) ∨
    ∃ detail, q.answer.outcome = .error (.invalidIdentifier detail)) : q.isRefused = true := by
  cases hrefused : q.isRefused with
  | true => rfl
  | false =>
    rcases h with ⟨detail, hd⟩ | ⟨detail, hd⟩ <;>
      simpa [QueryError.isAboutRows] using error_of_not_isRefused hrefused hd

theorem countAll_of_isRefused (h : q.isRefused = true) (m : Metrics) :
    m.countAll q.answer.entries = m :=
  Metrics.countAll_of_total_eq_zero ((q.call.conforms_answer q.catalog).refuses h).total m

/-- An aggregate is over the rows of a query that has been executed, also if it fails on them. -/
theorem queriesExecuted_of_aggregate {k : Catalog} {c : Condition} {aggregates : List Aggregate}
    {detail : String}
    (h : (k.store.aggregate c aggregates).outcome = .error (.invalidAggregate detail))
    (m : Metrics) :
    (m.countAll (k.store.aggregate c aggregates).entries).queriesExecuted =
      m.queriesExecuted + 1 := by
  let q : Query := ⟨k, _, .aggregate c aggregates⟩
  have hamount : q.amount .queriesExecuted = 1 := by
    rcases answer_of_not_isRefused (q := q) rfl with ⟨-, -, e, he⟩ | ⟨-, -, he⟩ | ⟨-, hrows, -⟩
    · cases he.symm.trans h
    · cases he.symm.trans h
    · obtain ⟨rows, hrows⟩ := Option.isSome_iff_exists.mp hrows
      rw [amount, hrows]
      rfl
  have hvalue := m.value_countAll q.answer.entries .queriesExecuted
  rw [total_answer, hamount] at hvalue
  exact hvalue

/-- What is counted of a page are the rows on all pages. -/
theorem rows?_of_findPage {k : Catalog} {c : Condition} {page : Option PageRequest}
    {paths : List String} {found : Page Json}
    (h : (k.findPage c page paths).outcome = .ok found) :
    ∃ rows, (⟨k, _, .findPage c page paths⟩ : Query).rows? = some rows ∧
      rows.length = found.totalElements := by
  let q : Query := ⟨k, _, .findPage c page paths⟩
  have hanswered : q.isRefused = false := by
    cases hrefused : q.isRefused with
    | false => rfl
    | true =>
      obtain ⟨e, he⟩ := (q.call.conforms_answer k).fails rfl hrefused
      cases he.symm.trans h
  obtain ⟨c', hpaths, hpage⟩ := Logged.exists_of_outcome_bind_eq_ok h
  obtain ⟨r, hresolve, -⟩ := Logged.exists_of_outcome_bind_eq_ok hpage
  have hfull : q.request.full = c' := by
    rw [Catalog.outcome_withPaths] at hpaths
    cases hadded : (c.addPaths paths).2 with
    | error e =>
      rw [hadded] at hpaths
      cases hpaths
    | ok u =>
      rw [hadded] at hpaths
      exact Except.ok.inj hpaths
  rw [Store.outcome_findPage hresolve, Store.findAll] at hpage
  rw [rows?_eq hanswered, hfull]
  change ∃ rows, (k.store.run c' .documents).outcome.toOption = some rows ∧ _
  cases hrun : (k.store.run c' .documents).outcome with
  | error e =>
    rw [hrun] at hpage
    cases hpage
  | ok rows =>
    rw [hrun] at hpage
    cases hpage
    exact ⟨rows, rfl, (length_sortDocuments r.sortKeys rows).symm⟩

end Query

section Sums

variable {α β : Type*}

theorem sum_map_getD (f : α → Option β) (g : β → Nat) (as : List α) :
    (as.map fun a => ((f a).map g).getD 0).sum = ((as.filterMap f).map g).sum := by
  induction as with
  | nil => rfl
  | cons a rest ih =>
    rw [List.map_cons, List.sum_cons, ih]
    cases hf : f a with
    | none => rw [List.filterMap_cons_none hf]; exact Nat.zero_add _
    | some b => rw [List.filterMap_cons_some hf]; rfl

theorem sum_map_getD_one (f : α → Option β) (as : List α) :
    (as.map fun a => ((f a).map fun _ => 1).getD 0).sum = (as.filterMap f).length := by
  rw [sum_map_getD, List.map_const', List.sum_replicate_nat, Nat.mul_one]

theorem sum_map_ite_one (p : α → Bool) (as : List α) :
    (as.map fun a => if p a then 1 else 0).sum = as.countP p := by
  induction as with
  | nil => rfl
  | cons a rest ih => rw [List.map_cons, List.sum_cons, ih, List.countP_cons, Nat.add_comm]

end Sums

namespace Metrics

/-- The counters after queries, one after the other, from a new registry on. -/
def after (queries : List Query) : Metrics :=
  queries.foldl (fun m q => m.countAll q.answer.entries) {}

theorem foldl_countAll (m : Metrics) (queries : List Query) :
    queries.foldl (fun m q => m.countAll q.answer.entries) m =
      m.countAll (queries.flatMap fun q => q.answer.entries) := by
  induction queries generalizing m with
  | nil => rfl
  | cons q rest ih => rw [List.foldl_cons, ih, List.flatMap_cons, countAll_append]

theorem total_flatMap_answer (i : Counter) (queries : List Query) :
    i.total (queries.flatMap fun q => q.answer.entries) =
      (queries.map fun q => q.amount i).sum := by
  induction queries with
  | nil => rfl
  | cons q rest ih =>
    rw [List.flatMap_cons, Counter.total_append, ih, q.total_answer, List.map_cons, List.sum_cons]

/-- After a run of queries, a counter is the sum of what they added to it. -/
theorem toNat_value_after {i : Counter} {queries : List Query}
    (h : (queries.map fun q => q.amount i).sum < UInt64.size) :
    ((after queries).value i).toNat = (queries.map fun q => q.amount i).sum := by
  rw [← total_flatMap_answer] at h ⊢
  rw [after, foldl_countAll]
  exact toNat_value_ofEvents h

/-- The counters are an account of queries. -/
structure Accounts (m : Metrics) (queries : List Query) : Prop where
  compiled : m.conditionsCompiled.toNat = (queries.filterMap Query.plan?).length
  reached : m.conditionsCompiled.toNat + m.compilationsRejected.toNat =
    queries.countP fun q => !q.isRefused
  executed : m.queriesExecuted.toNat = (queries.filterMap Query.rows?).length
  executed_le : m.queriesExecuted ≤ m.conditionsCompiled
  rows : m.rowsReturned.toNat = ((queries.filterMap Query.rows?).map List.length).sum
  skipped : m.parametersSkipped.toNat = ((queries.filterMap Query.plan?).map Plan.skipped).sum
  notFound : m.entitiesNotFound.toNat = queries.countP Query.isNotFound

theorem accounts_after {queries : List Query} (hqueries : queries.length < UInt64.size)
    (hrows : ((queries.filterMap Query.rows?).map List.length).sum < UInt64.size)
    (hskipped : ((queries.filterMap Query.plan?).map Plan.skipped).sum < UInt64.size) :
    (after queries).Accounts queries := by
  -- what the queries add to each counter in all
  have hcompiled : (queries.map fun q => q.amount .conditionsCompiled).sum =
      (queries.filterMap Query.plan?).length := sum_map_getD_one Query.plan? queries
  have hreached : (queries.map fun q => q.amount .conditionsCompiled).sum +
      (queries.map fun q => q.amount .compilationsRejected).sum =
        queries.countP fun q => !q.isRefused := by
    rw [← List.sum_map_add, ← sum_map_ite_one]
    simp only [Query.amount_compiled_add_rejected]
  have hexecuted : (queries.map fun q => q.amount .queriesExecuted).sum =
      (queries.filterMap Query.rows?).length := sum_map_getD_one Query.rows? queries
  have hreturned : (queries.map fun q => q.amount .rowsReturned).sum =
      ((queries.filterMap Query.rows?).map List.length).sum := sum_map_getD _ _ queries
  have hunused : (queries.map fun q => q.amount .parametersSkipped).sum =
      ((queries.filterMap Query.plan?).map Plan.skipped).sum := sum_map_getD _ _ queries
  have hmissing : (queries.map fun q => q.amount .entitiesNotFound).sum =
      queries.countP Query.isNotFound := sum_map_ite_one _ queries
  -- none of them goes beyond the range of a counter
  have hcompiled_le := List.length_filterMap_le Query.plan? queries
  have hreached_le : queries.countP (fun q => !q.isRefused) ≤ queries.length :=
    List.countP_le_length
  have hexecuted_le := List.length_filterMap_le Query.rows? queries
  have hmissing_le : queries.countP Query.isNotFound ≤ queries.length := List.countP_le_length
  have hvalue (i : Counter) (h : (queries.map fun q => q.amount i).sum < UInt64.size) :=
    toNat_value_after h
  have hcompiledValue := hvalue .conditionsCompiled (by omega)
  have hexecutedValue := hvalue .queriesExecuted (by omega)
  refine ⟨hcompiledValue.trans hcompiled, ?_, hexecutedValue.trans hexecuted, ?_,
    (hvalue .rowsReturned (by omega)).trans hreturned,
    (hvalue .parametersSkipped (by omega)).trans hunused,
    (hvalue .entitiesNotFound (by omega)).trans hmissing⟩
  · have hrejectedValue := hvalue .compilationsRejected (by omega)
    rw [← hreached, ← hcompiledValue, ← hrejectedValue]
    rfl
  · have hle : (queries.map fun q => q.amount .queriesExecuted).sum ≤
        (queries.map fun q => q.amount .conditionsCompiled).sum :=
      List.sum_le_sum fun q _ => q.amount_queriesExecuted_le
    rw [← hexecutedValue, ← hcompiledValue] at hle
    exact UInt64.le_iff_toNat_le.mpr hle

/-- The counters are an exact account of queries, as long as no counter comes to the end of its
range.

1. After a run of queries from a new registry on, the compilations that succeeded and those that
   were rejected are the queries that were not refused before; the executions are those that came
   to an end, and no more than the compilations; the rows, the skipped criteria and the look-ups
   that found nothing are counted one by one.
2. A query is refused before compilation if an identifier is null, a path of joins has a blank
   part, or a page is beyond the limits. It then leaves all counters as they are.
3. Errors of pages and of identifiers are those of queries that were refused.
4. Other queries fail in compilation, or on a document with too many bindings, or on the rows that
   they have selected, if they fail at all.
5. An aggregate that fails on its rows counts as executed.
6. The rows that count for a page are those on all pages. -/
theorem exact_account {queries : List Query} (hqueries : queries.length < UInt64.size)
    (hrows : ((queries.filterMap Query.rows?).map List.length).sum < UInt64.size)
    (hskipped : ((queries.filterMap Query.plan?).map Plan.skipped).sum < UInt64.size) :
    (after queries).Accounts queries ∧
    (∀ q : Query,
      (q.isRefused = true ↔
        (∃ id, q.request.identifier = some id ∧ id.isNull = true) ∨
        (∃ path ∈ q.request.paths, Path.isValid path = false) ∨
        ∃ page detail, q.request.page = some page ∧
          q.catalog.store.settings.pages.resolve page = .error (.invalidPage detail)) ∧
      (q.isRefused = true → ∀ m : Metrics, m.countAll q.answer.entries = m) ∧
      ((∃ detail, q.answer.outcome = .error (.invalidPage detail)) ∨
        (∃ detail, q.answer.outcome = .error (.invalidIdentifier detail)) →
          q.isRefused = true) ∧
      (q.isRefused = false →
        (q.plan? = none ∧ q.rows? = none ∧ ∃ e, q.answer.outcome = .error (.condition e)) ∨
        (q.plan?.isSome ∧ q.rows? = none ∧ q.answer.outcome = .error
          (.execution (.tooManyBindings (max q.catalog.store.settings.bindingLimit 1)))) ∨
        (q.plan?.isSome ∧ q.rows?.isSome ∧
          ∀ e, q.answer.outcome = .error e → e.isAboutRows = true))) ∧
    (∀ (k : Catalog) (c : Condition) (aggregates : List Aggregate) (detail : String),
      (k.store.aggregate c aggregates).outcome = .error (.invalidAggregate detail) →
      ∀ m : Metrics, (m.countAll (k.store.aggregate c aggregates).entries).queriesExecuted =
        m.queriesExecuted + 1) ∧
    ∀ (k : Catalog) (c : Condition) (page : Option PageRequest) (paths : List String)
      (found : Page Json), (k.findPage c page paths).outcome = .ok found →
      ∃ rows, (⟨k, _, .findPage c page paths⟩ : Query).rows? = some rows ∧
        rows.length = found.totalElements :=
  ⟨accounts_after hqueries hrows hskipped,
    fun _ => ⟨Query.isRefused_iff, Query.countAll_of_isRefused, Query.isRefused_of_answer,
      Query.answer_of_not_isRefused⟩,
    fun _ _ _ _ h => Query.queriesExecuted_of_aggregate h,
    fun _ _ _ _ _ h => Query.rows?_of_findPage h⟩

/-- Queries about posts: one that is refused, one that finds nothing, one whose condition is
rejected, one for a page of all posts that skips a criterion, and a sum of texts. -/
def blogQueries : List Query :=
  let k : Catalog := { store := Store.blog }
  [⟨k, _, .findById .null []⟩,
   ⟨k, _, .findById (.text "c") []⟩,
   ⟨k, _, .count { filter := { criteria := [⟨"", .int 1, .equals⟩] } }⟩,
   ⟨k, _, .findPage { filter := { criteria := [⟨"title", .null, .equals⟩] } }
     (some (.ofSize 0 1)) []⟩,
   ⟨k, _, .aggregate {} [.named .sum "id"]⟩]

theorem exact_account_blogQueries :
    (after blogQueries).conditionsCompiled.toNat = 3 ∧
      (after blogQueries).conditionsCompiled.toNat +
        (after blogQueries).compilationsRejected.toNat = 4 ∧
      (after blogQueries).parametersSkipped.toNat = 1 ∧
      (after blogQueries).queriesExecuted.toNat = 3 ∧
      (after blogQueries).rowsReturned.toNat = 4 ∧
      (after blogQueries).entitiesNotFound.toNat = 1 := by
  have hplans : (blogQueries.filterMap Query.plan?).map Plan.skipped = [0, 1, 0] := by rfl
  have hrows : (blogQueries.filterMap Query.rows?).map List.length = [0, 2, 2] := by rfl
  have hreached : blogQueries.countP (fun q => !q.isRefused) = 4 := by rfl
  have hmissing : blogQueries.countP Query.isNotFound = 1 := by rfl
  have hlength : blogQueries.length < UInt64.size := by decide
  obtain ⟨haccounts, -, -⟩ := exact_account hlength (by rw [hrows]; decide)
    (by rw [hplans]; decide)
  have hcompiled : (blogQueries.filterMap Query.plan?).length = 3 := by
    simpa using congrArg List.length hplans
  have hexecuted : (blogQueries.filterMap Query.rows?).length = 3 := by
    simpa using congrArg List.length hrows
  refine ⟨haccounts.compiled.trans hcompiled, haccounts.reached.trans hreached, ?_,
    haccounts.executed.trans hexecuted, ?_, haccounts.notFound.trans hmissing⟩
  · rw [haccounts.skipped, hplans]
    rfl
  · rw [haccounts.rows, hrows]
    rfl

end Metrics

end Criteria
