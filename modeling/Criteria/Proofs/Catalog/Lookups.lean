import Criteria.Proofs.Catalog.Calls
import Criteria.Proofs.Catalog.Identifiers
import Criteria.Proofs.Document.Equality
import Criteria.Proofs.Store.Rows

/-!
# Look-ups by an identifier agree

There are four ways to look a document up by its identifier: with an error if there is none, with
nothing, as a list for several identifiers, and with joins given as trees. All of them find the
first document of which the identifier equals the one looked for. Joins along paths make rows
come several times, but the first row stays the same.

## Main definitions

- `Join.ofPaths`: the chains of joins along paths
- `Catalog.Identifies`, `Catalog.firstWith?`: the documents with an identifier, and the first one
- `Catalog.Runs`: outcomes of a condition that could be run

## Main statements

- `Catalog.outcome_findById`, `Catalog.outcome_findOptionalById`,
  `Catalog.outcome_findAllByIds_singleton`, `Catalog.outcome_findByIdWith_of_ofPaths`: the four
  look-ups from the rows of one query
- `Catalog.head?_of_outcome_rowsById`: the first of these rows
- `Catalog.lookups_agree`: the four look-ups agree
-/

namespace Criteria

/-- The chains of joins along paths: left joins that load their rows. -/
def Join.ofPaths (paths : List String) : Except ConditionError (List Join) :=
  paths.mapM fun path => ofPath path .left true

theorem Join.each_of_ofPaths {P : JoinKind → Filter → Prop} (h : P .left {}) {paths : List String}
    {joins : List Join} (hjoins : ofPaths paths = .ok joins) : ∀ j ∈ joins, j.Each P := by
  induction paths generalizing joins with
  | nil =>
    obtain rfl := Except.ok.inj hjoins
    simp
  | cons path rest ih =>
    rw [ofPaths, List.mapM_cons] at hjoins
    cases hpath : ofPath path .left true with
    | error e =>
      rw [hpath] at hjoins
      cases hjoins
    | ok j =>
      cases hrest : ofPaths rest with
      | error e =>
        rw [hpath, ← ofPaths, hrest] at hjoins
        cases hjoins
      | ok others =>
        rw [hpath, ← ofPaths, hrest] at hjoins
        obtain rfl := Except.ok.inj hjoins
        obtain ⟨first, segments, -, rfl⟩ := exists_chain_of_ofPath hpath
        exact List.forall_mem_cons.mpr ⟨each_chain .left true first segments h, ih hrest⟩

/-- Joins along paths do no more than load rows. -/
theorem Condition.grownBy_of_ofPaths {paths : List String} {joins : List Join}
    (hjoins : Join.ofPaths paths = .ok joins) (c : Condition) :
    c.GrownBy Join.LoadsOnly (joins.foldl addJoin c) :=
  grownBy_foldl_addJoin (Join.each_of_ofPaths ⟨.inl rfl, rfl⟩ hjoins) c

/-- Adding joins along paths is adding their chains, if all of them can be made. -/
theorem Catalog.outcome_withPaths_eq (c : Condition) (paths : List String) :
    (Catalog.withPaths c paths).outcome =
      ((Join.ofPaths paths).mapError .condition).map fun joins =>
        joins.foldl Condition.addJoin c := by
  rw [outcome_withPaths]
  induction paths generalizing c with
  | nil => rfl
  | cons path rest ih =>
    rw [Condition.addPaths, Condition.addPath, Join.ofPaths, List.mapM_cons]
    cases hpath : Join.ofPath path .left true with
    | error e => rfl
    | ok j =>
      show ((Condition.addPaths (c.addJoin j) rest).2.mapError _).map
        (fun _ => (Condition.addPaths (c.addJoin j) rest).1) = _
      rw [ih, ← Join.ofPaths]
      cases Join.ofPaths rest <;> rfl

namespace Criterion

/-- One value is among the values of a list if it is the only one of these. -/
theorem truthOn_isIn_singleton (path : String) (value : Value) (row : Option Json) :
    (⟨path, .list [value], .isIn⟩ : Criterion).truthOn row =
      (⟨path, value, .equals⟩ : Criterion).truthOn row := by
  simp [truthOn, predicate, Comparison.eval, Value.toList?, Scope.operand?]

end Criterion

namespace Catalog

variable {k : Catalog} {id : Value} {paths : List String} {joins : List Join} {rows : List Json}

/-- The criterion that a document has an identifier. -/
def idCriterion (k : Catalog) (id : Value) : Criterion :=
  ⟨k.idField, id, .equals⟩

theorem isSkipped_idCriterion (hid : id.isNull = false) : (k.idCriterion id).isSkipped = false :=
  Criterion.isSkipped_of_not_null hid

theorem truthOn_filter_hasId (hid : id.isNull = false) (document : Json) :
    (k.hasId id).filter.truthOn document = (k.idCriterion id).truthOn (some document) :=
  Filter.truthOn_singleton (isSkipped_idCriterion hid) document

/-- A document has the identifier looked for. -/
def Identifies (k : Catalog) (id : Value) (document : Json) : Prop :=
  (k.idCriterion id).truthOn (some document) = .true

instance : DecidablePred (k.Identifies id) :=
  fun document => inferInstanceAs (Decidable ((k.idCriterion id).truthOn (some document) = .true))

theorem outcome_rowsById (k : Catalog) (id : Value) (paths : List String) :
    (k.rowsById id paths).outcome =
      ((Join.ofPaths paths).mapError .condition).bind fun joins =>
        (k.store.findAll (joins.foldl Condition.addJoin (k.hasId id))).outcome := by
  rw [rowsById, Logged.outcome_bind, outcome_withPaths_eq]
  cases Join.ofPaths paths <;> rfl

theorem outcome_rowsById_of_ofPaths (hjoins : Join.ofPaths paths = .ok joins) :
    (k.rowsById id paths).outcome =
      (k.store.findAll (joins.foldl Condition.addJoin (k.hasId id))).outcome := by
  rw [outcome_rowsById, hjoins]
  rfl

/-- The rows of a look-up are those of one query, with the chains of joins along its paths. -/
theorem exists_ofPaths_of_outcome_rowsById (h : (k.rowsById id paths).outcome = .ok rows) :
    ∃ joins, Join.ofPaths paths = .ok joins ∧
      (k.store.findAll (joins.foldl Condition.addJoin (k.hasId id))).outcome = .ok rows := by
  cases hjoins : Join.ofPaths paths with
  | error e =>
    rw [outcome_rowsById, hjoins] at h
    cases h
  | ok joins =>
    rw [outcome_rowsById_of_ofPaths hjoins] at h
    exact ⟨joins, rfl, h⟩

/-- The document that a look-up has found, or the error that there is none. -/
def foundOr (k : Catalog) (id : Value) : Option Json → Except QueryError Json
  | some document => .ok document
  | none => .error (.notFound k.store.entity (k.idCriteria id))

theorem outcome_firstOr (k : Catalog) (id : Value) (rows : List Json) :
    (firstOr rows (k.notFound (k.idCriteria id))).outcome = k.foundOr id rows.head? := by
  cases rows <;> rfl

theorem outcome_findById (hid : id.isNull = false) (paths : List String) :
    (k.findById id paths).outcome =
      (k.rowsById id paths).outcome.bind fun rows => k.foundOr id rows.head? := by
  rw [findById, requireId_bind hid, Logged.outcome_bind]
  congr 1
  funext rows
  exact k.outcome_firstOr id rows

theorem outcome_findOptionalById (hid : id.isNull = false) (paths : List String) :
    (k.findOptionalById id paths).outcome = (k.rowsById id paths).outcome.map List.head? := by
  rw [findOptionalById, hid, if_neg Bool.false_ne_true, Logged.outcome_bind_pure]

/-- Joins given as trees may be those along paths. -/
theorem outcome_findByIdWith_of_ofPaths (hid : id.isNull = false)
    (hjoins : Join.ofPaths paths = .ok joins) :
    (k.findByIdWith id joins).outcome = (k.findById id paths).outcome := by
  have hadded : (withJoins (k.hasId id) joins).outcome =
      .ok (joins.foldl Condition.addJoin (k.hasId id)) := rfl
  rw [outcome_findById hid, outcome_rowsById_of_ofPaths hjoins, findByIdWith, requireId_bind hid,
    Logged.outcome_bind, hadded]
  show (_ >>= _ : Reporting QueryError Json).outcome = _
  rw [Logged.outcome_bind]
  congr 1
  funext rows
  exact k.outcome_firstOr id rows

/-- A list of one identifier has the rows of this one. -/
theorem outcome_findAllByIds_singleton (hid : id.IsSingle) (paths : List String) :
    (k.findAllByIds [id] paths).outcome = (k.rowsById id paths).outcome := by
  have hnull := (Value.isSingle_iff.mp hid).1
  let among : Criterion := ⟨k.idField, .list [id], .isIn⟩
  have hamong : among.isSkipped = false := rfl
  have hequals : (k.idCriterion id).isSkipped = false := isSkipped_idCriterion hnull
  rw [findAllByIds, Logged.outcome_bind, outcome_withPaths_eq]
  cases hjoins : Join.ofPaths paths with
  | error e =>
    rw [outcome_rowsById, hjoins]
    rfl
  | ok joins =>
    rw [outcome_rowsById_of_ofPaths hjoins]
    show (k.store.findAll
      (joins.foldl Condition.addJoin { filter := { criteria := [among] } })).outcome = _
    rw [Condition.foldl_addJoin, Condition.foldl_addJoin]
    refine Store.outcome_findAll_congr
      { k.hasId id with joins := Join.insertAll joins [] } ?_ (fun document => ?_) k.store
    · -- both criteria have the same path and a value that is allowed
      show checkActives [among] = checkActives [k.idCriterion id]
      rw [checkActives_singleton hamong, checkActives_singleton hequals,
        Criterion.checkActive_of_fits (c := among) ⟨[id], rfl⟩,
        Criterion.checkActive_of_fits (c := k.idCriterion id) hid.2]
      rfl
    · rw [Filter.truthOn_singleton hamong]
      exact (Criterion.truthOn_isIn_singleton k.idField id (some document)).trans
        (truthOn_filter_hasId hnull document).symm

theorem hits_hasId (hid : id.isNull = false) (document : Json) :
    0 < ((k.hasId id).plan .documents).hits document ↔ k.Identifies id document := by
  rw [Condition.hits_plan_of_joins_eq_nil rfl, truthOn_filter_hasId hid, Identifies]
  split <;> simp_all

/-- The first document with an identifier. -/
def firstWith? (k : Catalog) (id : Value) : Option Json :=
  k.store.documents.find? fun document => k.Identifies id document

/-- The first row of a look-up is the first document with the identifier, since the joins of
the look-up do no more than load rows. -/
theorem head?_of_outcome_rowsById (hid : id.isNull = false)
    (h : (k.rowsById id paths).outcome = .ok rows) : rows.head? = k.firstWith? id := by
  obtain ⟨joins, hjoins, hfound⟩ := exists_ofPaths_of_outcome_rowsById h
  have hgrown := Condition.grownBy_of_ofPaths hjoins (k.hasId id)
  rw [Store.head?_of_outcome_findAll_eq_ok hfound]
  simp only [hgrown.hits_pos_iff, hits_hasId hid]
  rfl

theorem consulted_hasId (k : Catalog) (id : Value) :
    (k.hasId id).consulted = [k.idCriterion id] :=
  rfl

/-- A look-up without joins can be run if its criterion is accepted. -/
theorem exists_rowsById_of_accepted (h : (k.idCriterion id).Accepted) :
    ∃ rows, (k.rowsById id []).outcome = .ok rows := by
  have hnone : Join.ofPaths [] = .ok [] := rfl
  rw [outcome_rowsById_of_ofPaths hnone]
  refine ⟨_, Store.outcome_findAll_of_joins_eq_nil rfl (fun c hc => ?_) k.store⟩
  obtain rfl := List.mem_singleton.mp hc
  exact h

/-- A look-up without joins succeeds if one with joins does. -/
theorem exists_rowsById_nil (h : (k.rowsById id paths).outcome = .ok rows) :
    ∃ rows, (k.rowsById id []).outcome = .ok rows := by
  obtain ⟨joins, hjoins, hfound⟩ := exists_ofPaths_of_outcome_rowsById h
  obtain ⟨found, hcompile, -⟩ := Store.exists_select_of_outcome_run_eq_ok hfound
  have hchecks := (Condition.compile_eq_ok_iff.mp hcompile).1
  rw [(Condition.grownBy_of_ofPaths hjoins (k.hasId id)).consulted_eq, consulted_hasId] at hchecks
  exact exists_rowsById_of_accepted
    (checkActives_eq_ok_iff.mp hchecks _ (List.mem_singleton.mpr rfl))

/-- The rows of a look-up fail as its condition or its execution does. -/
theorem exists_of_outcome_rowsById_eq_error {e : QueryError}
    (h : (k.rowsById id paths).outcome = .error e) :
    (∃ e', e = .condition e') ∨ ∃ e', e = .execution e' := by
  cases hjoins : Join.ofPaths paths with
  | error e' =>
    rw [outcome_rowsById, hjoins] at h
    cases h
    exact .inl ⟨e', rfl⟩
  | ok joins =>
    rw [outcome_rowsById_of_ofPaths hjoins] at h
    rcases Store.exists_of_outcome_run_eq_error h with ⟨e', -, he⟩ | ⟨p, -, he⟩
    · exact .inl ⟨e', he⟩
    · exact .inr ⟨_, he⟩

theorem foundOr_eq_ok_iff {found : Option Json} {d : Json} :
    k.foundOr id found = .ok d ↔ found = some d := by
  cases found <;> simp [foundOr]

theorem foundOr_eq_error_iff {found : Option Json} {e : QueryError} :
    k.foundOr id found = .error e ↔
      found = none ∧ e = .notFound k.store.entity (k.idCriteria id) := by
  cases found <;> simp [foundOr, eq_comm]

/-- What the look-ups answer with when their condition can be run. -/
theorem outcome_findById_of_rowsById (hid : id.isNull = false)
    (h : (k.rowsById id paths).outcome = .ok rows) :
    (k.findById id paths).outcome = k.foundOr id (k.firstWith? id) := by
  rw [outcome_findById hid, h, ← head?_of_outcome_rowsById hid h]
  rfl

theorem outcome_findOptionalById_of_rowsById (hid : id.isNull = false)
    (h : (k.rowsById id paths).outcome = .ok rows) :
    (k.findOptionalById id paths).outcome = .ok (k.firstWith? id) := by
  rw [outcome_findOptionalById hid, h, ← head?_of_outcome_rowsById hid h]
  rfl

/-- If some document has the identifier, the first one of these is found. -/
theorem exists_firstWith?_eq_some {d : Json} (hd : d ∈ k.store.documents)
    (h : k.Identifies id d) : ∃ first, k.firstWith? id = some first ∧ k.Identifies id first := by
  cases hfirst : k.firstWith? id with
  | none =>
    have hmissed := List.find?_eq_none.mp hfirst d hd
    simp [h] at hmissed
  | some first =>
    have hfound := List.find?_some hfirst
    exact ⟨first, rfl, of_decide_eq_true hfound⟩

/-- A look-up that fails has not missed a document with the identifier. -/
theorem isNotFound_eq_false_of_identifies {d : Json} {e : QueryError} (hid : id.isNull = false)
    (hd : d ∈ k.store.documents) (h : k.Identifies id d)
    (he : (k.findById id paths).outcome = .error e) : e.isNotFound = false := by
  cases hrows : (k.rowsById id paths).outcome with
  | error e' =>
    rw [outcome_findById hid, hrows] at he
    cases he
    rcases exists_of_outcome_rowsById_eq_error hrows with ⟨e', rfl⟩ | ⟨e', rfl⟩ <;> rfl
  | ok rows =>
    obtain ⟨first, hfirst, -⟩ := exists_firstWith?_eq_some hd h
    rw [outcome_findById_of_rowsById hid hrows, hfirst] at he
    cases he

/-- The outcome is not the error of a condition or of its execution. -/
def Runs {α : Type} (outcome : Except QueryError α) : Prop :=
  (∀ e, outcome ≠ .error (.condition e)) ∧ ∀ e, outcome ≠ .error (.execution e)

/-- The four look-ups by an identifier that is neither null nor a list agree, whatever joins they
load along paths.

1. If the look-up with an error for a document that is missing can be run, all of them can: the
   paths have chains of joins. One finds a document if and only if the others do, which find the
   same. It misses if and only if the optional one has nothing and the list is empty, and does not
   fail otherwise. What is found does not depend on the joins.
2. A document of which the identifier is the one looked for is not missed, unless the look-up is
   for a number that is not finite. -/
theorem lookups_agree {k : Catalog} {id : Value} (hid : id.IsSingle) (paths : List String) :
    (Runs (k.findById id paths).outcome → ∃ joins, Join.ofPaths paths = .ok joins ∧
      (∀ d, (k.findById id paths).outcome = .ok d ↔
        (k.findOptionalById id paths).outcome = .ok (some d)) ∧
      (∀ d, (k.findById id paths).outcome = .ok d ↔
        ∃ rest, (k.findAllByIds [id] paths).outcome = .ok (d :: rest)) ∧
      (∀ d, (k.findById id paths).outcome = .ok d ↔ (k.findByIdWith id joins).outcome = .ok d) ∧
      ((k.findById id paths).outcome = .error (.notFound k.store.entity (k.idCriteria id)) ↔
        (k.findOptionalById id paths).outcome = .ok none ∧
          (k.findAllByIds [id] paths).outcome = .ok []) ∧
      (∀ e, (k.findById id paths).outcome = .error e →
        e = .notFound k.store.entity (k.idCriteria id)) ∧
      (k.findById id paths).outcome = (k.findById id []).outcome ∧
      (k.findOptionalById id paths).outcome = (k.findOptionalById id []).outcome ∧
      (k.findAllByIds [id] paths).outcome.map List.head? =
        (k.findAllByIds [id] []).outcome.map List.head? ∧
      (k.findByIdWith id joins).outcome = (k.findByIdWith id []).outcome) ∧
    ∀ d ∈ k.store.documents, d.resolve? k.idField = some id.toJson →
      (∀ x, id = .float x → x.isFinite = true) →
      ∀ e, (k.findById id paths).outcome = .error e → e.isNotFound = false := by
  have hnull := (Value.isSingle_iff.mp hid).1
  refine ⟨fun hruns => ?_, fun d hd hresolve hfinite e he => ?_⟩
  · cases hrows : (k.rowsById id paths).outcome with
    | error e =>
      have hfails : (k.findById id paths).outcome = .error e := by
        rw [outcome_findById hnull, hrows]
        rfl
      rcases exists_of_outcome_rowsById_eq_error hrows with ⟨e', rfl⟩ | ⟨e', rfl⟩
      · exact absurd hfails (hruns.1 e')
      · exact absurd hfails (hruns.2 e')
    | ok rows =>
      obtain ⟨plain, hplain⟩ := exists_rowsById_nil hrows
      obtain ⟨joins, hjoins, -⟩ := exists_ofPaths_of_outcome_rowsById hrows
      have hhead := head?_of_outcome_rowsById hnull hrows
      have hplainHead := head?_of_outcome_rowsById hnull hplain
      have hnone : Join.ofPaths [] = .ok [] := rfl
      refine ⟨joins, hjoins, ?_⟩
      rw [outcome_findByIdWith_of_ofPaths hnull hjoins,
        outcome_findByIdWith_of_ofPaths hnull hnone,
        outcome_findById_of_rowsById hnull hrows, outcome_findById_of_rowsById hnull hplain,
        outcome_findOptionalById_of_rowsById hnull hrows,
        outcome_findOptionalById_of_rowsById hnull hplain,
        outcome_findAllByIds_singleton hid, outcome_findAllByIds_singleton hid, hrows, hplain]
      refine ⟨fun d => ?_, fun d => ?_, fun d => Iff.rfl, ?_,
        fun e he => (foundOr_eq_error_iff.mp he).2, rfl, rfl, ?_, rfl⟩
      · rw [foundOr_eq_ok_iff, Except.ok.injEq]
      · rw [foundOr_eq_ok_iff, ← hhead, List.head?_eq_some_iff]
        simp only [Except.ok.injEq]
      · rw [foundOr_eq_error_iff, ← hhead, Except.ok.injEq, Except.ok.injEq,
          List.head?_eq_none_iff]
        exact ⟨fun h => ⟨h.1, h.1⟩, fun h => ⟨h.1, rfl⟩⟩
      · exact congrArg Except.ok (hhead.trans hplainHead.symm)
  · exact isNotFound_eq_false_of_identifies hnull hd
      (Criterion.truthOn_equals_of_compare? hresolve (Value.compare?_toJson hid hfinite)) he

/-- A post of the first day of a year, with two comments. -/
def firstOfYear : Json :=
  .object [("comments", .array [.object [], .object []]), ("id", .text "2024-01-01")]

/-- Posts by day, the second one of the first day. -/
def daily : Catalog where
  store := {
    entity := "posts"
    documents := [.object [("id", .text "2024-01-02")], firstOfYear] }

/-- The identifier looked for is the same point in time, written in another way. The post comes
twice with its comments. -/
theorem lookups_agree_daily :
    (daily.findById (.text "2024-01-01T00:00:00Z") ["comments"]).outcome = .ok firstOfYear ∧
      (daily.findOptionalById (.text "2024-01-01T00:00:00Z") ["comments"]).outcome =
        .ok (some firstOfYear) ∧
      (∃ rest, (daily.findAllByIds [.text "2024-01-01T00:00:00Z"] ["comments"]).outcome =
        .ok (firstOfYear :: rest)) ∧
      (daily.findById (.text "2024-01-01T00:00:00Z") []).outcome = .ok firstOfYear ∧
      ∀ e, (daily.findById (.text "2024-01-01") ["comments"]).outcome = .error e →
        e.isNotFound = false := by
  have hsingle (s : String) : (Value.text s).IsSingle := Value.isSingle_iff.mpr ⟨rfl, rfl⟩
  have hfirst : daily.firstWith? (.text "2024-01-01T00:00:00Z") = some firstOfYear :=
    (List.find?_cons_of_neg (by decide +kernel)).trans (List.find?_cons_of_pos (by decide +kernel))
  have hrun :
      (daily.rowsById (.text "2024-01-01T00:00:00Z") ["comments"]).outcome.toBool = true := by
    decide +kernel
  have hfound : (daily.findById (.text "2024-01-01T00:00:00Z") ["comments"]).outcome =
      .ok firstOfYear := by
    cases hrows : (daily.rowsById (.text "2024-01-01T00:00:00Z") ["comments"]).outcome with
    | error e =>
      rw [hrows] at hrun
      cases hrun
    | ok rows =>
      rw [outcome_findById_of_rowsById rfl hrows, hfirst]
      rfl
  have hruns : Runs (daily.findById (.text "2024-01-01T00:00:00Z") ["comments"]).outcome := by
    rw [hfound]
    exact ⟨nofun, nofun⟩
  obtain ⟨joins, -, hoptional, hlist, -, -, -, hplain, -⟩ :=
    (lookups_agree (hsingle "2024-01-01T00:00:00Z") ["comments"]).1 hruns
  refine ⟨hfound, (hoptional firstOfYear).mp hfound, (hlist firstOfYear).mp hfound,
    hplain ▸ hfound, ?_⟩
  refine (lookups_agree (hsingle "2024-01-01") ["comments"]).2 firstOfYear ?_ ?_ nofun
  · exact List.mem_cons_of_mem _ (List.mem_singleton.mpr rfl)
  · rw [Value.toJson]
    rfl

end Catalog

end Criteria
