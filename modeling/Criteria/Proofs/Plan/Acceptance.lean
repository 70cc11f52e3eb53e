import Criteria.Proofs.Plan.WellFormed

/-!
# Which conditions are accepted

A condition is compiled unless a criterion that takes part is ill formed, and the first of these
gives the error. A condition that has been checked has no such criterion.

## Main definitions

- `Value.Fits`: the values that an operator may be given
- `Criterion.WellFormed`, `Criterion.Fault`: criteria without a fault, and the faults of others
- `Criterion.error?`, `Criterion.Accepted`: the part of a criterion in the error of a condition
- `Criterion.predicateOr`: the predicate of a criterion, with a way out for values that are no
  lists and no pairs

## Main statements

- `Condition.compile_eq_error_iff`: a compilation fails at the first fault
- `Condition.accepted_of_check`: a condition that has been checked has no fault
- `Criterion.compile_eq_predicateOr`: the ways out are never taken
-/

namespace Criteria

namespace Value

/-- The value is neither null nor a list. -/
def IsSingle (v : Value) : Prop :=
  v ≠ .null ∧ ∀ items, v ≠ .list items

/-- The values that an operator may be given, by what it expects. -/
def Fits (v : Value) : Expected → Prop
  | .nothing => True
  | .scalar | .text => ∀ items, v ≠ .list items
  | .number => (∃ i, v = .int i) ∨ ∃ x, v = .float x
  | .temporal =>
    (∃ i, v = .int i) ∨ (∃ x, v = .float x) ∨ ∃ s, v = .text s ∧ (Timestamp.ofText? s).isSome
  | .list => ∃ items, v = .list items
  | .pair => ∃ lower upper, v = .list [lower, upper] ∧ lower.IsSingle ∧ upper.IsSingle
  | .size => ∃ i, 0 ≤ i ∧ v = .int i

theorem isSingle_iff {v : Value} : v.IsSingle ↔ v.isNull = false ∧ v.isList = false := by
  cases v <;> simp [IsSingle, isNull, isList]

theorem toPair?_eq_some_iff {v lower upper : Value} :
    v.toPair? = some (lower, upper) ↔ v = .list [lower, upper] := by
  unfold toPair?
  split
  · simp
  · rename_i h
    simpa using h lower upper

theorem fits_pair_iff {lower upper : Value} :
    (Value.list [lower, upper]).Fits .pair ↔ lower.IsSingle ∧ upper.IsSingle := by
  constructor
  · rintro ⟨_, _, h, hsingle⟩
    cases h
    exact hsingle
  · intro h
    exact ⟨lower, upper, rfl, h⟩

theorem check_pair_eq_ok_iff (v : Value) : v.check .pair = .ok () ↔ v.Fits .pair := by
  cases hpair : v.toPair? with
  | none =>
    have hnot : ¬ v.Fits .pair := by
      rintro ⟨lower, upper, hv, -⟩
      rw [toPair?_eq_some_iff.mpr hv] at hpair
      cases hpair
    simp [check, hpair, hnot]
  | some bounds =>
    obtain ⟨lower, upper⟩ := bounds
    obtain rfl := toPair?_eq_some_iff.mp hpair
    rw [fits_pair_iff, isSingle_iff, isSingle_iff]
    simp only [check, hpair]
    cases lower.isNull <;> cases upper.isNull <;> cases lower.isList <;> cases upper.isList <;>
      simp

/-- The check of a value tells whether it fits. -/
theorem check_eq_ok_iff (v : Value) (expected : Expected) :
    v.check expected = .ok () ↔ v.Fits expected := by
  cases expected with
  | pair => exact v.check_pair_eq_ok_iff
  | temporal => cases v <;> simp [check, Fits, Option.isSome_iff_ne_none]
  | _ => cases v <;> simp [check, Fits, isList]

end Value

namespace Criterion

/-- No segment of the path is blank, and the operator may be given the value. -/
def WellFormed (c : Criterion) : Prop :=
  (∀ part ∈ Path.parts c.path, Text.isBlank part = false) ∧ c.value.Fits c.operator.expects

/-- What is wrong with a criterion: a blank segment before a value that does not fit. -/
inductive Fault (c : Criterion) : ConditionError → Prop
  | path (blank : ∃ part ∈ Path.parts c.path, Text.isBlank part = true) :
    Fault c (.emptySegment c.path)
  | value {unfit : Unfit} (path : ∀ part ∈ Path.parts c.path, Text.isBlank part = false)
    (value : c.value.check c.operator.expects = .error unfit) :
    Fault c (.unfitValue c.path c.operator unfit.reason)

theorem checkValue_eq_ok_iff (c : Criterion) :
    c.checkValue = .ok () ↔ c.value.Fits c.operator.expects := by
  rw [← Value.check_eq_ok_iff, checkValue]
  split <;> rename_i h <;> simp [h]

theorem isValid_eq_true_iff (path : String) :
    Path.isValid path = true ↔ ∀ part ∈ Path.parts path, Text.isBlank part = false := by
  simp [Path.isValid]

theorem checkActive_of_blank {c : Criterion}
    (h : ∃ part ∈ Path.parts c.path, Text.isBlank part = true) :
    c.checkActive = .error (.emptySegment c.path) := by
  have hvalid : ¬ Path.isValid c.path = true := by
    rw [isValid_eq_true_iff]
    obtain ⟨part, hpart, hblank⟩ := h
    exact fun hall => by simp [hall part hpart] at hblank
  rw [checkActive, Path.segments, if_neg hvalid]
  rfl

theorem checkActive_of_not_blank {c : Criterion}
    (h : ∀ part ∈ Path.parts c.path, Text.isBlank part = false) :
    c.checkActive = c.checkValue := by
  rw [checkActive, Path.segments, if_pos ((isValid_eq_true_iff c.path).mpr h)]
  rfl

theorem blank_or_not_blank (path : String) :
    (∃ part ∈ Path.parts path, Text.isBlank part = true) ∨
      ∀ part ∈ Path.parts path, Text.isBlank part = false := by
  rw [← isValid_eq_true_iff]
  by_cases h : Path.isValid path = true
  · exact .inr h
  · left
    simpa [Path.isValid] using h

theorem checkActive_of_fits {c : Criterion} (h : c.value.Fits c.operator.expects) :
    c.checkActive = (Path.segments c.path).map fun _ => () := by
  rw [checkActive, (checkValue_eq_ok_iff c).mpr h]
  cases Path.segments c.path <;> rfl

theorem compile_of_fits {c : Criterion} (source : Source) (h : c.value.Fits c.operator.expects) :
    c.compile source = (Path.segments c.path).map fun _ => c.predicate source := by
  rw [compile, checkActive_of_fits h]
  cases Path.segments c.path <;> rfl

theorem checkActive_eq_ok_iff {c : Criterion} : c.checkActive = .ok () ↔ c.WellFormed := by
  rcases blank_or_not_blank c.path with hblank | hpath
  · rw [checkActive_of_blank hblank]
    obtain ⟨part, hpart, hblank⟩ := hblank
    constructor
    · intro h
      cases h
    · intro h
      simp [h.1 part hpart] at hblank
  · rw [checkActive_of_not_blank hpath, checkValue_eq_ok_iff, WellFormed]
    exact (and_iff_right hpath).symm

theorem checkActive_eq_error_iff {c : Criterion} {e : ConditionError} :
    c.checkActive = .error e ↔ c.Fault e := by
  rcases blank_or_not_blank c.path with hblank | hpath
  · rw [checkActive_of_blank hblank]
    constructor
    · intro h
      cases h
      exact .path hblank
    · rintro (_ | ⟨hpath, _⟩)
      · rfl
      · obtain ⟨part, hpart, hblank⟩ := hblank
        simp [hpath part hpart] at hblank
  · rw [checkActive_of_not_blank hpath, checkValue]
    constructor
    · intro h
      split at h
      · cases h
      · rename_i hunfit
        cases h
        exact .value hpath hunfit
    · rintro (⟨part, hpart, hblank⟩ | ⟨_, hunfit⟩)
      · simp [hpath part hpart] at hblank
      · rw [hunfit]

theorem not_wellFormed_iff {c : Criterion} : ¬ c.WellFormed ↔ ∃ e, c.Fault e := by
  simp only [← checkActive_eq_ok_iff, ← checkActive_eq_error_iff]
  cases c.checkActive <;> simp

/-- The predicate of a criterion, with a way out where its operator works on a list or on a pair
and the value is none. -/
def predicateOr (source : Source) (noList noPair : Except ConditionError Predicate)
    (c : Criterion) : Except ConditionError Predicate :=
  match c.operator.expects, c.value.toList?, c.value.toPair? with
  | .list, none, _ => noList
  | .pair, _, none => noPair
  | _, _, _ => .ok (c.predicate source)

/-- Whatever the ways out are, they are never taken: a value that is not a list or a pair where
one is needed is refused before. -/
theorem compile_eq_predicateOr (source : Source)
    (noList noPair : Except ConditionError Predicate) (c : Criterion) :
    c.compile source = c.checkActive.bind fun _ => c.predicateOr source noList noPair := by
  rw [compile]
  cases hcheck : c.checkActive with
  | error e => rfl
  | ok u =>
    have hfits := (checkActive_eq_ok_iff.mp hcheck).2
    have hpredicate : c.predicateOr source noList noPair = .ok (c.predicate source) := by
      unfold predicateOr
      split
      · rename_i hexpects hlist
        rw [hexpects] at hfits
        obtain ⟨items, hitems⟩ := hfits
        rw [hitems] at hlist
        cases hlist
      · rename_i hexpects hpair
        rw [hexpects] at hfits
        obtain ⟨lower, upper, hbounds, -⟩ := hfits
        rw [hbounds] at hpair
        cases hpair
      · rfl
    exact hpredicate.symm

theorem isSkipped_of_not_null {c : Criterion} (h : c.value.isNull = false) :
    c.isSkipped = false := by
  rw [isSkipped, h, Bool.false_and]

/-- The criterion takes no part, or is well formed. -/
def Accepted (c : Criterion) : Prop :=
  c.isSkipped = true ∨ c.WellFormed

/-- The error that a criterion gives if it takes part. -/
def error? (c : Criterion) : Option ConditionError :=
  if c.isSkipped then none else
    match c.checkActive with
    | .ok () => none
    | .error e => some e

theorem error?_eq_some_iff {c : Criterion} {e : ConditionError} :
    c.error? = some e ↔ c.isSkipped = false ∧ c.Fault e := by
  rw [← checkActive_eq_error_iff, error?]
  cases c.isSkipped <;> cases c.checkActive <;> simp

theorem error?_eq_none_iff {c : Criterion} : c.error? = none ↔ c.Accepted := by
  rw [Accepted, ← checkActive_eq_ok_iff, error?]
  cases c.isSkipped <;> cases c.checkActive <;> simp

theorem accepted_of_check {c : Criterion} (h : c.check = .ok ()) : c.Accepted := by
  by_cases hskipped : c.isSkipped = true
  · exact .inl hskipped
  · right
    rw [← checkActive_eq_ok_iff, ← h, check, checkActive]
    simp only [hskipped, Bool.false_eq_true, if_false]

end Criterion

theorem checkActives_singleton {c : Criterion} (h : c.isSkipped = false) :
    checkActives [c] = c.checkActive := by
  have hbind : checkActives [c] = c.checkActive.bind fun _ => checkActives [] := by
    simp only [checkActives, List.filter_cons, h, Bool.not_false, if_true]
    rfl
  rw [hbind]
  cases c.checkActive <;> rfl

/-- The first criterion with an error gives the error. -/
theorem checkActives_eq_findSome? (criteria : List Criterion) :
    checkActives criteria =
      match criteria.findSome? Criterion.error? with
      | none => .ok ()
      | some e => .error e := by
  induction criteria with
  | nil => rfl
  | cons first rest ih =>
    rw [List.findSome?_cons]
    cases hskipped : first.isSkipped with
    | true =>
      have hrest : checkActives (first :: rest) = checkActives rest := by
        simp [checkActives, hskipped]
      rw [hrest, ih, Criterion.error?, if_pos hskipped]
    | false =>
      have hrest : checkActives (first :: rest) =
          first.checkActive.bind fun _ => checkActives rest := by
        simp only [checkActives, List.filter_cons, hskipped, Bool.not_false, if_true]
        rfl
      rw [hrest, ih, Criterion.error?, hskipped]
      cases first.checkActive <;> rfl

/-- The first criterion that takes part and is ill formed gives the error. -/
theorem checkActives_eq_error_iff {criteria : List Criterion} {e : ConditionError} :
    checkActives criteria = .error e ↔
      ∃ before c after, criteria = before ++ c :: after ∧ (∀ k ∈ before, k.Accepted) ∧
        c.isSkipped = false ∧ c.Fault e := by
  have hfind : checkActives criteria = .error e ↔
      criteria.findSome? Criterion.error? = some e := by
    rw [checkActives_eq_findSome?]
    cases criteria.findSome? Criterion.error? <;> simp
  rw [hfind, List.findSome?_eq_some_iff]
  simp only [Criterion.error?_eq_some_iff, Criterion.error?_eq_none_iff]
  constructor
  · rintro ⟨before, c, after, hsplit, hfault, hbefore⟩
    exact ⟨before, c, after, hsplit, hbefore, hfault⟩
  · rintro ⟨before, c, after, hsplit, hbefore, hfault⟩
    exact ⟨before, c, after, hsplit, hfault, hbefore⟩

theorem checkActives_eq_ok_iff {criteria : List Criterion} :
    checkActives criteria = .ok () ↔ ∀ c ∈ criteria, c.Accepted := by
  have hfind : checkActives criteria = .ok () ↔
      criteria.findSome? Criterion.error? = none := by
    rw [checkActives_eq_findSome?]
    cases criteria.findSome? Criterion.error? <;> simp
  simp only [hfind, List.findSome?_eq_none_iff, Criterion.error?_eq_none_iff]

/-- Two checks pass if the first does and then the second. -/
theorem check_then_eq_ok_iff {first second : Except ConditionError Unit} :
    (first >>= fun _ => second) = .ok () ↔ first = .ok () ∧ second = .ok () := by
  cases first with
  | error e => simp [bind, Except.bind]
  | ok u => exact (and_iff_right rfl).symm

theorem accepted_of_forM_check {criteria : List Criterion}
    (h : criteria.forM Criterion.check = .ok ()) : ∀ c ∈ criteria, c.Accepted := by
  induction criteria with
  | nil => simp
  | cons first rest ih =>
    rw [List.forM_eq_forM, List.forM_cons] at h
    obtain ⟨hfirst, hrest⟩ := check_then_eq_ok_iff.mp h
    exact List.forall_mem_cons.mpr ⟨Criterion.accepted_of_check hfirst, ih hrest⟩

namespace Filter

theorem accepted_criteria_of_check {f : Filter} (h : f.check = .ok ()) :
    ∀ c ∈ f.criteria, c.Accepted := by
  obtain ⟨criteria, - | group⟩ := f
  · exact accepted_of_forM_check h
  · exact accepted_of_forM_check (check_then_eq_ok_iff.mp h).1

/-- The check of a filter covers its alternatives, and more at greater depth. -/
theorem accepted_of_check {f : Filter} (h : f.check = .ok ()) : ∀ c ∈ f.consulted, c.Accepted := by
  have halternatives : ∀ c ∈ f.alternatives, c.Accepted := by
    obtain ⟨criteria, - | group⟩ := f
    · simp [alternatives]
    · exact accepted_criteria_of_check (check_then_eq_ok_iff.mp h).2
  exact List.forall_mem_append.mpr ⟨accepted_criteria_of_check h, halternatives⟩

end Filter

namespace Join

mutual

theorem accepted_of_check (above : List JoinIdentity) (j : Join) (h : j.check = .ok ()) :
    ∀ l ∈ located above j, ∀ c ∈ l.join.filter.consulted, c.Accepted := by
  obtain ⟨key, kind, filter, children, fetch⟩ := j
  rw [check] at h
  obtain ⟨hfilter, hchildren⟩ := check_then_eq_ok_iff.mp h
  rw [located]
  exact List.forall_mem_cons.mpr ⟨Filter.accepted_of_check hfilter,
    accepted_of_checkAll (above ++ [⟨key, kind⟩]) children hchildren⟩

theorem accepted_of_checkAll (above : List JoinIdentity) (joins : List Join)
    (h : checkAll joins = .ok ()) :
    ∀ l ∈ locatedAll above joins, ∀ c ∈ l.join.filter.consulted, c.Accepted := by
  cases joins with
  | nil => simp [locatedAll]
  | cons j rest =>
    rw [checkAll] at h
    obtain ⟨hj, hrest⟩ := check_then_eq_ok_iff.mp h
    rw [locatedAll]
    exact List.forall_mem_append.mpr ⟨accepted_of_check above j hj,
      accepted_of_checkAll above rest hrest⟩

end

end Join

namespace Condition

/-- The criteria that a plan depends on: those of the documents, their alternatives, and for each
join in preorder its own and their alternatives. -/
theorem consulted_eq_located (c : Condition) :
    c.consulted = c.filter.criteria ++ c.filter.alternatives ++
      (Join.locatedAll [] c.joins).flatMap fun l =>
        l.join.filter.criteria ++ l.join.filter.alternatives := by
  rw [consulted, flatMap_consulted_visits]
  rfl

/-- A condition that has been checked has no criterion that is ill formed and takes part. -/
theorem accepted_of_check {c : Condition} (h : c.check = .ok ()) :
    ∀ k ∈ c.consulted, k.Accepted := by
  obtain ⟨hfilter, hjoins⟩ := check_then_eq_ok_iff.mp h
  rw [consulted, flatMap_consulted_visits]
  refine List.forall_mem_append.mpr ⟨Filter.accepted_of_check hfilter, fun k hk => ?_⟩
  obtain ⟨l, hl, hk⟩ := List.mem_flatMap.mp hk
  exact Join.accepted_of_checkAll [] c.joins hjoins l hl k hk

/-- A compilation fails at the first criterion that takes part and is ill formed. -/
theorem compile_eq_error_iff {c : Condition} {purpose : Purpose} {e : ConditionError} :
    c.compile purpose = .error e ↔
      ∃ before k after, c.consulted = before ++ k :: after ∧ (∀ b ∈ before, b.Accepted) ∧
        k.isSkipped = false ∧ k.Fault e := by
  rw [← checkActives_eq_error_iff, compile_eq]
  cases checkActives c.consulted <;> simp [Except.map]

theorem compile_eq_ok_of_accepted {c : Condition} (h : ∀ k ∈ c.consulted, k.Accepted)
    (purpose : Purpose) : c.compile purpose = .ok (c.plan purpose) :=
  compile_eq_ok_iff.mpr ⟨checkActives_eq_ok_iff.mpr h, rfl⟩

/-- What is read from a text is a condition if its criteria are well formed. -/
theorem outcome_ofText_of_read {text : String} {c : Condition}
    (h : (reader.readText text).outcome = .ok c) :
    (ofText text).outcome = c.check.map fun _ => c := by
  rw [ofText, Logged.outcome_bind, Logged.mapError, h]
  exact Logged.outcome_bind_pure (Logged.ofExcept c.check) fun _ => c

/-- What is read has been checked. -/
theorem check_of_ofText {text : String} {c : Condition} (h : (ofText text).outcome = .ok c) :
    c.check = .ok () := by
  obtain ⟨read, -, h⟩ := Logged.exists_of_outcome_bind_eq_ok h
  obtain ⟨u, hcheck, h⟩ := Logged.exists_of_outcome_bind_eq_ok h
  cases h
  exact hcheck

end Condition

end Criteria
