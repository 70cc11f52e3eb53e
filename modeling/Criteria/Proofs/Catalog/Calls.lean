import Criteria.Proofs.Aggregate.Results
import Criteria.Proofs.Metrics.Amounts
import Criteria.Proofs.Store.Failure

/-!
# Calls to a catalog

The calls that a catalog and its store answer differ in what they check, in the condition that
they run, and in what they make of the rows. Each of them is refused before anything is compiled,
or reports what one run of its condition reports; a look-up that finds nothing reports that too.

## Main definitions

- `Call`, `Call.answer`: the calls and their answers
- `Call.request`: what a call checks, and the condition that it runs
- `Finishes`, `AnswersFrom`, `Refuses`: what a step after a run, a call that runs a condition and
  a call that is refused add to the counters
- `Conforms`: a computation answers a request

## Main statements

- `Call.conforms_answer`: each call answers its request
-/

namespace Criteria

/-- The calls that a catalog and its store answer, by the type of the answer. -/
inductive Call : Type → Type 1 where
  | storeFindAll (c : Condition) : Call (List Json)
  | storeFindAllSorted (c : Condition) (fields : List SortField) : Call (List Json)
  | storeFindPage (c : Condition) (page : Option PageRequest) : Call (Page Json)
  | storeCount (c : Condition) : Call Nat
  | storeHolds (c : Condition) : Call Bool
  | aggregate (c : Condition) (aggregates : List Aggregate) : Call (List (String × Json))
  | findById (id : Value) (paths : List String) : Call Json
  | findOptionalById (id : Value) (paths : List String) : Call (Option Json)
  | findByIdWith (id : Value) (joins : List Join) : Call Json
  | findAllByIds (ids : List Value) (paths : List String) : Call (List Json)
  | findFirst (c : Condition) : Call (Option Json)
  | findPage (c : Condition) (page : Option PageRequest) (paths : List String) : Call (Page Json)
  | findAll (c : Condition) (page : Option PageRequest) (paths : List String) : Call (List Json)
  | findIds (c : Condition) : Call (List Json)
  | count (c : Condition) : Call Nat
  | holds (c : Condition) : Call Bool
  | holdsEqual (pairs : List (String × Value)) : Call Bool
  | listByEqual (pairs : List (String × Value)) (paths : List String) : Call (List Json)
  | listByEqualWith (pairs : List (String × Value)) (joins : List Join) : Call (List Json)
  | listByConditionWith (c : Condition) (joins : List Join) : Call (List Json)
  | findOneByEqualWith (pairs : List (String × Value)) (joins : List Join) : Call Json
  | findOneByConditionWith (c : Condition) (joins : List Join) : Call Json
  | search (text : String) (fields : List String) (page : Option PageRequest) : Call (List Json)
  | searchPage (text : String) (fields : List String) (page : Option PageRequest) :
    Call (Page Json)
  | findFiltered {β : Type} (translate : β → Condition) (filter : β)
    (page : Option PageRequest) : Call (Page Json)
  | countFiltered {β : Type} (translate : β → Condition) (filter : β) : Call Nat

/-- What a call checks before it runs a condition, and how it comes to this condition. -/
structure Request where
  /-- An identifier, which must not be null. -/
  identifier : Option Value := none
  /-- A page, which must be within the limits; without a request it is the first page. -/
  page : Option (Option PageRequest) := none
  condition : Condition
  /-- Paths of joins to add, none of which may have a blank part. -/
  paths : List String := []
  /-- Joins to add. -/
  joins : List Join := []
  purpose : Purpose := .documents

namespace Request

/-- Something that is checked before a condition is compiled is not as it must be. -/
def isRefused (limits : PageLimits) (r : Request) : Bool :=
  r.identifier.any Value.isNull || !r.paths.all Path.isValid ||
    r.page.any fun page => !(limits.resolve page).isOk

/-- The condition with all joins added. -/
def full (r : Request) : Condition :=
  r.joins.foldl Condition.addJoin (r.condition.addPaths r.paths).1

end Request

namespace Call

variable {α : Type}

def answer (k : Catalog) : Call α → Reporting QueryError α
  | storeFindAll c => k.store.findAll c
  | storeFindAllSorted c fields => k.store.findAllSorted c fields
  | storeFindPage c page => k.store.findPage c page
  | storeCount c => k.store.count c
  | storeHolds c => k.store.holds c
  | aggregate c aggregates => k.store.aggregate c aggregates
  | findById id paths => k.findById id paths
  | findOptionalById id paths => k.findOptionalById id paths
  | findByIdWith id joins => k.findByIdWith id joins
  | findAllByIds ids paths => k.findAllByIds ids paths
  | findFirst c => k.findFirst c
  | findPage c page paths => k.findPage c page paths
  | findAll c page paths => k.findAll c page paths
  | findIds c => k.findIds c
  | count c => k.count c
  | holds c => k.holds c
  | holdsEqual pairs => k.holdsEqual pairs
  | listByEqual pairs paths => k.listByEqual pairs paths
  | listByEqualWith pairs joins => k.listByEqualWith pairs joins
  | listByConditionWith c joins => k.listByConditionWith c joins
  | findOneByEqualWith pairs joins => k.findOneByEqualWith pairs joins
  | findOneByConditionWith c joins => k.findOneByConditionWith c joins
  | search text fields page => k.search text fields page
  | searchPage text fields page => k.searchPage text fields page
  | findFiltered translate filter page => k.findFiltered translate filter page
  | countFiltered translate filter => k.countFiltered translate filter

/-- What a call asks for. -/
def request (k : Catalog) : Call α → Request
  | storeFindAll condition | storeFindAllSorted condition _ => { condition }
  | storeFindPage condition page => { condition, page := some page }
  | storeCount condition | storeHolds condition | aggregate condition _ | count condition
  | holds condition => { condition, purpose := .number }
  | findById id paths | findOptionalById id paths =>
    { identifier := some id, condition := k.hasId id, paths }
  | findByIdWith id joins => { identifier := some id, condition := k.hasId id, joins }
  | findAllByIds ids paths =>
    { condition := { filter := ({} : Filter).add k.idField (.list ids) .isIn }, paths }
  | findFirst condition => { condition, page := some (some (.ofSize 0 1)) }
  | findPage condition page paths | findAll condition page paths =>
    { condition, page := some page, paths }
  | findIds c => { condition := { c with suppressFetch := true } }
  | holdsEqual pairs => { condition := Catalog.equalities pairs, purpose := .number }
  | listByEqual pairs paths => { condition := Catalog.equalities pairs, paths }
  | listByEqualWith pairs joins | findOneByEqualWith pairs joins =>
    { condition := Catalog.equalities pairs, joins }
  | listByConditionWith condition joins | findOneByConditionWith condition joins =>
    { condition, joins }
  | search text fields page | searchPage text fields page =>
    { condition := Catalog.contains text fields, page := some page }
  | findFiltered translate filter page => { condition := translate filter, page := some page }
  | countFiltered translate filter => { condition := translate filter, purpose := .number }

end Call

/-- The error is about the rows of an answer, and not about the query. -/
def QueryError.isAboutRows : QueryError → Bool
  | .notFound _ _ | .invalidAggregate _ => true
  | _ => false

/-- What an outcome adds to a counter: a look-up that found nothing is counted. -/
def Counter.missing {α : Type} (i : Counter) : Except QueryError α → Nat
  | .error (.notFound _ _) => if i = .entitiesNotFound then 1 else 0
  | _ => 0

theorem Counter.missing_error {α β : Type} (i : Counter) (e : QueryError) :
    i.missing (.error e : Except QueryError α) = i.missing (.error e : Except QueryError β) := by
  cases e <;> rfl

theorem Counter.missing_error_eq_zero_iff {α : Type} {e : QueryError} :
    (∀ i : Counter, i.missing (.error e : Except QueryError α) = 0) ↔ e.isNotFound = false := by
  cases e with
  | notFound entity criteria =>
    constructor <;> intro h
    · cases h .entitiesNotFound
    · cases h
  | _ => exact ⟨fun _ => rfl, fun _ _ => rfl⟩

section Composition

variable {α β : Type} {x : Reporting QueryError α} {run : Reporting QueryError (List Json)}

/-- A step that goes on from the rows of a run: it reports no more than that it finds nothing. -/
structure Finishes (x : Reporting QueryError α) : Prop where
  total : ∀ i : Counter, i.total x.entries = i.missing x.outcome
  error : ∀ e, x.outcome = .error e → e.isAboutRows = true

/-- A computation that answers from the rows of a run: it reports what the run reports, and beyond
that no more than that it finds nothing; it fails as the run fails, or on its rows. -/
structure AnswersFrom (run : Reporting QueryError (List Json)) (x : Reporting QueryError α) :
    Prop where
  total : ∀ i : Counter, i.total x.entries = i.total run.entries + i.missing x.outcome
  fails : ∀ e, run.outcome = .error e → x.outcome = .error e
  error : ∀ rows e, run.outcome = .ok rows → x.outcome = .error e → e.isAboutRows = true

/-- A computation that ends before anything is compiled, and not in a look-up. -/
structure Refuses (x : Reporting QueryError α) : Prop where
  total : ∀ i : Counter, i.total x.entries = 0
  missing : ∀ i : Counter, i.missing x.outcome = 0

theorem finishes_pure (a : α) : Finishes (pure a) :=
  ⟨fun _ => rfl, fun _ h => nomatch h⟩

theorem finishes_notFound (k : Catalog) (criteria : String) :
    Finishes (k.notFound criteria : Reporting QueryError α) where
  total i := by cases i <;> rfl
  error e h := by
    cases h
    rfl

theorem Finishes.firstOr {otherwise : Reporting QueryError α} (h : Finishes otherwise)
    (rows : List α) : Finishes (Catalog.firstOr rows otherwise) := by
  cases rows with
  | nil => exact h
  | cons row rest => exact finishes_pure row

/-- A step after an answer is part of the answer. -/
theorem AnswersFrom.bind (h : AnswersFrom run x) {f : α → Reporting QueryError β}
    (hf : ∀ a, Finishes (f a)) : AnswersFrom run (x >>= f) where
  total i := by
    rw [Logged.outcome_bind]
    cases hx : x.outcome with
    | error e =>
      rw [Logged.entries_bind_error hx, h.total, hx]
      exact congrArg _ (i.missing_error e)
    | ok a =>
      have hown : i.missing x.outcome = 0 := by rw [hx]; rfl
      rw [Logged.entries_bind_ok hx, Counter.total_append, h.total, hown, (hf a).total]
      rfl
  fails e hrun := by
    rw [Logged.outcome_bind, h.fails e hrun]
    rfl
  error rows e hrun he := by
    rcases Logged.exists_of_outcome_bind_eq_error he with hx | ⟨a, -, ha⟩
    · exact h.error rows e hrun hx
    · exact (hf a).error e ha

/-- Steps that add to no counter may come before an answer. -/
theorem AnswersFrom.after {f : α → Reporting QueryError β} {a : α}
    (h : AnswersFrom run (f a)) (hx : x.outcome = .ok a)
    (hnone : ∀ i : Counter, i.total x.entries = 0) : AnswersFrom run (x >>= f) where
  total i := by
    rw [Logged.outcome_bind, Logged.entries_bind_ok hx, Counter.total_append, hnone, hx,
      Nat.zero_add]
    exact h.total i
  fails e hrun := by
    rw [Logged.outcome_bind, hx]
    exact h.fails e hrun
  error rows e hrun he := by
    rw [Logged.outcome_bind, hx] at he
    exact h.error rows e hrun he

theorem Refuses.after {f : α → Reporting QueryError β} {a : α} (h : Refuses (f a))
    (hx : x.outcome = .ok a) (hnone : ∀ i : Counter, i.total x.entries = 0) :
    Refuses (x >>= f) where
  total i := by
    rw [Logged.entries_bind_ok hx, Counter.total_append, hnone, Nat.zero_add]
    exact h.total i
  missing i := by
    rw [Logged.outcome_bind, hx]
    exact h.missing i

/-- What is refused in its first step goes no further. -/
theorem Refuses.of_error {f : α → Reporting QueryError β} {e : QueryError}
    (hx : x.outcome = .error e) (he : e.isNotFound = false)
    (hnone : ∀ i : Counter, i.total x.entries = 0) : Refuses (x >>= f) where
  total i := by
    rw [Logged.entries_bind_error hx]
    exact hnone i
  missing i := by
    rw [Logged.outcome_bind, hx]
    exact Counter.missing_error_eq_zero_iff.mpr he i

end Composition

section Steps

theorem finishes_aggregateAll (rows : List Json) (aggregates : List Aggregate) :
    Finishes (Logged.ofExcept (aggregateAll rows aggregates) : Reporting QueryError _) where
  total i := by
    rw [Logged.entries_ofExcept, Logged.outcome_ofExcept]
    cases h : aggregateAll rows aggregates with
    | ok fields => rfl
    | error e =>
      obtain ⟨detail, rfl⟩ := exists_detail_of_aggregateAll h
      rfl
  error e h := by
    obtain ⟨detail, rfl⟩ := exists_detail_of_aggregateAll h
    rfl

theorem Store.answersFrom_run (s : Store) (c : Condition) (purpose : Purpose) :
    AnswersFrom (s.run c purpose) (s.run c purpose) where
  total i := by
    have hfound : i.missing (s.run c purpose).outcome = 0 := by
      cases h : (s.run c purpose).outcome with
      | ok rows => rfl
      | error e =>
        rcases Store.exists_of_outcome_run_eq_error h with ⟨e', -, rfl⟩ | ⟨p, -, rfl⟩ <;> rfl
    rw [hfound, Nat.add_zero]
  fails _ h := h
  error rows e hok herror := by
    rw [hok] at herror
    cases herror

theorem PageLimits.exists_of_resolve_eq_error {limits : PageLimits} {page : Option PageRequest}
    {e : QueryError} (h : limits.resolve page = .error e) : ∃ detail, e = .invalidPage detail := by
  cases page with
  | none => cases h
  | some r =>
    rw [PageLimits.resolve] at h
    split at h
    · cases h
      exact ⟨_, rfl⟩
    · split at h
      · cases h
        exact ⟨_, rfl⟩
      · cases h

theorem Counter.total_map_joinMerged (i : Counter) (identities : List JoinIdentity) :
    i.total (identities.map .joinMerged) = 0 := by
  refine Counter.total_eq_zero fun event hevent => ?_
  obtain ⟨identity, -, rfl⟩ := List.mem_map.mp hevent
  cases i <;> rfl

theorem Join.exists_of_ofPath (path : String) (kind : JoinKind) (fetch : Bool) :
    (Path.isValid path = true ∧ ∃ j, Join.ofPath path kind fetch = .ok j) ∨
      Path.isValid path = false ∧ ∃ e, Join.ofPath path kind fetch = .error e := by
  unfold Join.ofPath Path.segments
  cases hvalid : Path.isValid path with
  | false => exact .inr ⟨rfl, _, rfl⟩
  | true =>
    cases hparts : Path.parts path with
    | nil => exact absurd hparts (Path.parts_ne_nil path)
    | cons first rest => exact .inl ⟨rfl, _, rfl⟩

/-- Paths can be added if none of them has a blank part. -/
theorem Condition.exists_of_addPaths (c : Condition) (paths : List String) :
    (paths.all Path.isValid = true ∧ (c.addPaths paths).2 = .ok ()) ∨
      paths.all Path.isValid = false ∧ ∃ e, (c.addPaths paths).2 = .error e := by
  induction paths generalizing c with
  | nil => exact .inl ⟨rfl, rfl⟩
  | cons path rest ih =>
    rw [List.all_cons, Condition.addPaths, Condition.addPath]
    rcases Join.exists_of_ofPath path .left true with ⟨hvalid, j, hj⟩ | ⟨hblank, e, he⟩
    · rw [hj, hvalid, Bool.true_and]
      exact ih (c.addJoin j)
    · rw [he, hblank, Bool.false_and]
      exact .inr ⟨rfl, e, rfl⟩

end Steps

section Requests

variable {α β : Type} {k : Catalog} {r : Request} {x : Reporting QueryError α}

/-- A computation answers a request: it is refused if something that is checked before is not as
it must be, and otherwise it answers from the run of the condition. -/
structure Conforms (k : Catalog) (r : Request) (x : Reporting QueryError α) : Prop where
  refuses : r.isRefused k.store.settings.pages = true → Refuses x
  answers : r.isRefused k.store.settings.pages = false →
    AnswersFrom (k.store.run r.full r.purpose) x
  /-- Without an identifier, what is refused has no answer. -/
  fails : r.identifier = none → r.isRefused k.store.settings.pages = true →
    ∃ e, x.outcome = .error e

theorem conforms_run (k : Catalog) (condition : Condition) (purpose : Purpose) :
    Conforms k { condition, purpose } (k.store.run condition purpose) where
  refuses h := nomatch h
  answers _ := Store.answersFrom_run k.store condition purpose
  fails _ h := nomatch h

theorem Conforms.bind (h : Conforms k r x) (hid : r.identifier = none)
    {f : α → Reporting QueryError β} (hf : ∀ a, Finishes (f a)) : Conforms k r (x >>= f) where
  refuses hrefused := by
    obtain ⟨e, he⟩ := h.fails hid hrefused
    have hx := h.refuses hrefused
    have hmissing := hx.missing
    rw [he] at hmissing
    exact .of_error he (Counter.missing_error_eq_zero_iff.mp hmissing) hx.total
  answers hanswered := (h.answers hanswered).bind hf
  fails _ hrefused := by
    obtain ⟨e, he⟩ := h.fails hid hrefused
    exact ⟨e, by rw [Logged.outcome_bind, he]; rfl⟩

/-- Steps that add to no counter may come before, if what they check is as it must be. -/
theorem Conforms.after {r' : Request} {f : α → Reporting QueryError β} {a : α}
    (h : Conforms k r (f a)) (hx : x.outcome = .ok a)
    (hnone : ∀ i : Counter, i.total x.entries = 0)
    (hrefused : r'.isRefused k.store.settings.pages = r.isRefused k.store.settings.pages)
    (hfull : r'.full = r.full) (hpurpose : r'.purpose = r.purpose)
    (hid : r'.identifier = r.identifier) : Conforms k r' (x >>= f) where
  refuses h' := (h.refuses (hrefused.symm.trans h')).after hx hnone
  answers h' := by
    rw [hfull, hpurpose]
    exact (h.answers (hrefused.symm.trans h')).after hx hnone
  fails hid' h' := by
    obtain ⟨e, he⟩ := h.fails (hid.symm.trans hid') (hrefused.symm.trans h')
    exact ⟨e, by rw [Logged.outcome_bind, hx]; exact he⟩

/-- What fails in its first step is refused. -/
theorem Conforms.of_error {f : α → Reporting QueryError β} {e : QueryError}
    (hx : x.outcome = .error e) (he : e.isNotFound = false)
    (hnone : ∀ i : Counter, i.total x.entries = 0)
    (hrefused : r.isRefused k.store.settings.pages = true) : Conforms k r (x >>= f) where
  refuses _ := .of_error hx he hnone
  answers h := by
    rw [hrefused] at h
    cases h
  fails _ _ := ⟨e, by rw [Logged.outcome_bind, hx]; rfl⟩

theorem conforms_findPage (k : Catalog) (condition : Condition) (page : Option PageRequest) :
    Conforms k { condition, page := some page } (k.store.findPage condition page) := by
  have hisRefused : ({ condition, page := some page } : Request).isRefused
      k.store.settings.pages = !(k.store.settings.pages.resolve page).isOk := rfl
  have hnone (i : Counter) : i.total (Logged.ofExcept (k.store.settings.pages.resolve page) :
      Reporting QueryError PageRequest).entries = 0 := rfl
  cases hpage : k.store.settings.pages.resolve page with
  | error e =>
    obtain ⟨detail, rfl⟩ := PageLimits.exists_of_resolve_eq_error hpage
    refine .of_error hpage rfl hnone ?_
    rw [hisRefused, hpage]
    rfl
  | ok resolved =>
    have hrows := (conforms_run k condition .documents).bind rfl fun rows =>
      finishes_pure (sortDocuments resolved.sortKeys rows)
    have hcut := hrows.bind rfl fun rows => finishes_pure (Page.cut rows resolved)
    rw [Store.findPage]
    refine Conforms.after hcut hpage hnone ?_ rfl rfl rfl
    rw [hisRefused, hpage]
    rfl

theorem Request.isRefused_paths (limits : PageLimits) (hpaths : r.paths = [])
    (paths : List String) : { r with paths }.isRefused limits =
      (!paths.all Path.isValid || r.isRefused limits) := by
  simp only [isRefused, hpaths, List.all_nil, Bool.not_true, Bool.or_false]
  rw [Bool.or_comm (r.identifier.any _), Bool.or_assoc]

theorem Catalog.total_withPaths (i : Counter) (c : Condition) (paths : List String) :
    i.total (Catalog.withPaths c paths).entries = 0 := by
  have hmerges := Counter.total_map_joinMerged i (c.mergedPaths paths)
  rw [Catalog.withPaths, Logged.entries_bind_ok (Logged.outcome_note _), Counter.total_append,
    Logged.entries_note, hmerges]
  cases hpaths : (c.addPaths paths).2 with
  | ok u => rfl
  | error e => rfl

theorem Catalog.outcome_withPaths (c : Condition) (paths : List String) :
    (Catalog.withPaths c paths).outcome =
      ((c.addPaths paths).2.mapError .condition).map fun _ => (c.addPaths paths).1 := by
  rw [Catalog.withPaths, Logged.outcome_bind, Logged.outcome_note]
  exact Logged.outcome_bind_pure (Logged.ofExcept _) _

/-- Paths of joins are added before the condition runs. -/
theorem Conforms.withPaths {paths : List String} {f : Condition → Reporting QueryError α}
    (hpaths : r.paths = [])
    (h : Conforms k { r with condition := (r.condition.addPaths paths).1 }
      (f (r.condition.addPaths paths).1)) :
    Conforms k { r with paths } (Catalog.withPaths r.condition paths >>= f) := by
  have hnone (i : Counter) := Catalog.total_withPaths i r.condition paths
  have hadded := Catalog.outcome_withPaths r.condition paths
  have hisRefused := Request.isRefused_paths k.store.settings.pages hpaths paths
  rcases Condition.exists_of_addPaths r.condition paths with ⟨hvalid, hok⟩ | ⟨hblank, e, he⟩
  · rw [hok] at hadded
    rw [hvalid, Bool.not_true, Bool.false_or] at hisRefused
    refine h.after hadded hnone hisRefused ?_ rfl rfl
    rw [Request.full, Request.full, hpaths]
    rfl
  · rw [he] at hadded
    rw [hblank, Bool.not_false, Bool.true_or] at hisRefused
    exact .of_error hadded rfl hnone hisRefused

/-- Joins are added before the condition runs. -/
theorem Conforms.withJoins {joins : List Join} {f : Condition → Reporting QueryError α}
    (hjoins : r.joins = []) (hpaths : r.paths = [])
    (h : Conforms k { r with condition := joins.foldl Condition.addJoin r.condition }
      (f (joins.foldl Condition.addJoin r.condition))) :
    Conforms k { r with joins } (Catalog.withJoins r.condition joins >>= f) := by
  have hnone (i : Counter) : i.total (Catalog.withJoins r.condition joins).entries = 0 := by
    rw [Catalog.withJoins, Logged.entries_bind_ok (Logged.outcome_note _), Counter.total_append,
      Logged.entries_note, Counter.total_map_joinMerged]
    rfl
  refine h.after rfl hnone rfl ?_ rfl rfl
  rw [Request.full, Request.full, hpaths, hjoins]
  rfl

/-- A null identifier is looked at before all else. -/
theorem Conforms.identified {id : Value} (hid : r.identifier = none)
    (hnull : id.isNull = true → Refuses x) (h : id.isNull = false → Conforms k r x) :
    Conforms k { r with identifier := some id } x := by
  have hisRefused : { r with identifier := some id }.isRefused k.store.settings.pages =
      (id.isNull || r.isRefused k.store.settings.pages) := by
    simp only [Request.isRefused, hid, Option.any_some, Option.any_none, Bool.false_or,
      Bool.or_assoc]
  refine ⟨fun hrefused => ?_, fun hanswered => ?_, fun h => nomatch h⟩
  · rw [hisRefused] at hrefused
    cases hvalue : id.isNull with
    | true => exact hnull hvalue
    | false =>
      rw [hvalue, Bool.false_or] at hrefused
      exact (h hvalue).refuses hrefused
  · rw [hisRefused, Bool.or_eq_false_iff] at hanswered
    exact (h hanswered.1).answers hanswered.2

theorem refuses_requireId {id : Value} (h : id.isNull = true)
    (f : Unit → Reporting QueryError α) : Refuses (k.requireId id >>= f) := by
  have hfails : k.requireId id =
      Logged.fail (.invalidIdentifier s!"{k.idField} must not be null") := by
    rw [Catalog.requireId, if_pos h]
  rw [hfails]
  exact .of_error rfl rfl fun _ => rfl

theorem requireId_bind {id : Value} (h : id.isNull = false)
    (f : Unit → Reporting QueryError α) : k.requireId id >>= f = f () := by
  rw [Catalog.requireId, h]
  rfl

variable (k)

theorem conforms_count (c : Condition) :
    Conforms k { condition := c, purpose := .number } (k.store.count c) :=
  (conforms_run k c .number).bind rfl fun _ => finishes_pure _

theorem conforms_holds (c : Condition) :
    Conforms k { condition := c, purpose := .number } (k.store.holds c) :=
  (conforms_count k c).bind rfl fun _ => finishes_pure _

theorem conforms_findAll_withPaths (c : Condition) (paths : List String) :
    Conforms k { condition := c, paths } (Catalog.withPaths c paths >>= k.store.findAll) :=
  Conforms.withPaths (r := { condition := c }) rfl (conforms_run k _ .documents)

theorem conforms_findAll_withJoins (c : Condition) (joins : List Join) :
    Conforms k { condition := c, joins } (Catalog.withJoins c joins >>= k.store.findAll) :=
  Conforms.withJoins (r := { condition := c }) rfl rfl (conforms_run k _ .documents)

theorem conforms_catalog_findPage (c : Condition) (page : Option PageRequest)
    (paths : List String) :
    Conforms k { condition := c, page := some page, paths } (k.findPage c page paths) :=
  Conforms.withPaths (r := { condition := c, page := some page }) rfl (conforms_findPage k _ page)

/-- Each call answers what it asks for, in one of the ways in which a query may end. -/
theorem Call.conforms_answer (q : Call α) : Conforms k (q.request k) (q.answer k) := by
  cases q with
  | storeFindAll c => exact conforms_run k c .documents
  | storeFindAllSorted c fields =>
    exact (conforms_run k c .documents).bind rfl fun _ => finishes_pure _
  | storeFindPage c page => exact conforms_findPage k c page
  | storeCount c => exact conforms_count k c
  | storeHolds c => exact conforms_holds k c
  | aggregate c aggregates =>
    exact (conforms_run k c .number).bind rfl fun rows => finishes_aggregateAll rows aggregates
  | findById id paths =>
    refine Conforms.identified (r := { condition := k.hasId id, paths }) rfl
      (fun hnull => refuses_requireId hnull _) fun hnull => ?_
    rw [answer, Catalog.findById, requireId_bind hnull]
    exact (conforms_findAll_withPaths k _ paths).bind rfl fun rows =>
      (finishes_notFound k _).firstOr rows
  | findOptionalById id paths =>
    refine Conforms.identified (r := { condition := k.hasId id, paths }) rfl
      (fun hnull => ?_) fun hnull => ?_
    · -- a null identifier is answered with nothing, and is no failure
      rw [answer, Catalog.findOptionalById, if_pos hnull]
      exact ⟨fun _ => rfl, fun _ => rfl⟩
    · rw [answer, Catalog.findOptionalById, hnull]
      exact (conforms_findAll_withPaths k _ paths).bind rfl fun _ => finishes_pure _
  | findByIdWith id joins =>
    refine Conforms.identified (r := { condition := k.hasId id, joins }) rfl
      (fun hnull => refuses_requireId hnull _) fun hnull => ?_
    rw [answer, Catalog.findByIdWith, requireId_bind hnull]
    refine Conforms.withJoins (r := { condition := k.hasId id }) rfl rfl ?_
    exact (conforms_run k _ .documents).bind rfl fun rows => (finishes_notFound k _).firstOr rows
  | findAllByIds ids paths => exact conforms_findAll_withPaths k _ paths
  | findFirst c => exact (conforms_findPage k c _).bind rfl fun _ => finishes_pure _
  | findPage c page paths => exact conforms_catalog_findPage k c page paths
  | findAll c page paths =>
    exact (conforms_catalog_findPage k c page paths).bind rfl fun _ => finishes_pure _
  | findIds c => exact (conforms_run k _ .documents).bind rfl fun _ => finishes_pure _
  | count c => exact conforms_count k c
  | holds c => exact conforms_holds k c
  | holdsEqual pairs => exact conforms_holds k _
  | listByEqual pairs paths => exact conforms_findAll_withPaths k _ paths
  | listByEqualWith pairs joins => exact conforms_findAll_withJoins k _ joins
  | listByConditionWith c joins => exact conforms_findAll_withJoins k c joins
  | findOneByEqualWith pairs joins =>
    exact (conforms_findAll_withJoins k _ joins).bind rfl fun rows =>
      (finishes_notFound k _).firstOr rows
  | findOneByConditionWith c joins =>
    exact (conforms_findAll_withJoins k c joins).bind rfl fun rows =>
      (finishes_notFound k _).firstOr rows
  | search text fields page => exact (conforms_findPage k _ page).bind rfl fun _ => finishes_pure _
  | searchPage text fields page => exact conforms_findPage k _ page
  | findFiltered translate filter page => exact conforms_findPage k _ page
  | countFiltered translate filter => exact conforms_count k _

end Requests

end Criteria
