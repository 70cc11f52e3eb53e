import Criteria.Proofs.Criterion.Expansions
import Criteria.Proofs.Store.Rows

/-!
# Ranges as pairs of bounds

A criterion that asks for a range of numbers is met where the lower and the upper bound are met. So
it may be replaced by criteria for the two bounds wherever all criteria have to be met: among those
of the documents, and among those of joins. Alternatives are not such a place.

## Main definitions

- `Criterion.Expands`: criteria of which some ranges are given by their bounds
- `Filter.Expands`, `Condition.Expands`: filters and conditions with such criteria

## Main statements

- `Condition.Expands.outcome_run_eq`: the answers are the same
- `Store.comparisons_expand`: comparisons by others, and the two ways to build a range
-/

namespace Criteria

theorem truthsOn_append (row : Option Json) (cs ds : List Criterion) :
    truthsOn row (cs ++ ds) = truthsOn row cs ++ truthsOn row ds := by
  rw [truthsOn, List.filter_append, List.map_append]
  rfl

theorem Value.isNull_eq_false_of_fits_number {v : Value} (h : v.Fits .number) :
    v.isNull = false := by
  obtain ⟨i, rfl⟩ | ⟨x, rfl⟩ := h <;> rfl

theorem Value.isSingle_of_fits_number {v : Value} (h : v.Fits .number) : v.IsSingle := by
  obtain ⟨i, rfl⟩ | ⟨x, rfl⟩ := h <;> exact ⟨nofun, nofun⟩

namespace Criterion

theorem truthOn_between (path : String) (lower upper : Value) (row : Option Json) :
    (⟨path, .pair lower upper, .between⟩ : Criterion).truthOn row =
      ((⟨path, lower, .greaterEquals⟩ : Criterion).truthOn row).and
        ((⟨path, upper, .lessEquals⟩ : Criterion).truthOn row) := by
  simp only [truthOn, predicate, Predicate.eval_compare]
  rfl

/-- Of criteria that may be given their value, only the path is checked. -/
theorem checkActives_of_fits {c : Criterion} (hnull : c.value.isNull = false)
    (hfits : c.value.Fits c.operator.expects) :
    checkActives [c] = (Path.segments c.path).map fun _ => () := by
  rw [checkActives_singleton (isSkipped_of_not_null hnull), checkActive_of_fits hfits]

/-- The same criteria, but for ranges of numbers of which the second list has both bounds. -/
inductive Expands : List Criterion → List Criterion → Prop
  | nil : Expands [] []
  | same (c : Criterion) {cs ds : List Criterion} (h : Expands cs ds) : Expands (c :: cs) (c :: ds)
  | range (path : String) {lower upper : Value} {cs ds : List Criterion}
    (hlower : lower.Fits .number) (hupper : upper.Fits .number) (h : Expands cs ds) :
    Expands (⟨path, .pair lower upper, .between⟩ :: cs)
      (⟨path, lower, .greaterEquals⟩ :: ⟨path, upper, .lessEquals⟩ :: ds)

namespace Expands

variable {cs ds : List Criterion}

theorem refl : ∀ cs : List Criterion, Expands cs cs
  | [] => .nil
  | c :: cs => .same c (refl cs)

theorem append {cs' ds' : List Criterion} (h : Expands cs ds) (h' : Expands cs' ds') :
    Expands (cs ++ cs') (ds ++ ds') := by
  induction h with
  | nil => exact h'
  | same c _ ih => exact .same c ih
  | range path hlower hupper _ ih => exact .range path hlower hupper ih

theorem all_truthsOn_eq (h : Expands cs ds) (row : Option Json) :
    Truth.all (truthsOn row ds) = Truth.all (truthsOn row cs) := by
  have hone {c : Criterion} (hnull : c.value.isNull = false) :
      truthsOn row [c] = [c.truthOn row] :=
    truthsOn_singleton (isSkipped_of_not_null hnull) row
  induction h with
  | nil => rfl
  | @same c cs ds _ ih =>
    rw [← List.singleton_append, truthsOn_append, Truth.all_append, ih, ← Truth.all_append,
      ← truthsOn_append, List.singleton_append]
  | @range path lower upper cs ds hlower hupper _ ih =>
    let between : Criterion := ⟨path, .pair lower upper, .between⟩
    let least : Criterion := ⟨path, lower, .greaterEquals⟩
    let greatest : Criterion := ⟨path, upper, .lessEquals⟩
    show Truth.all (truthsOn row ([least] ++ ([greatest] ++ ds))) =
      Truth.all (truthsOn row ([between] ++ cs))
    rw [truthsOn_append, truthsOn_append, truthsOn_append, hone (c := between) rfl,
      hone (c := least) (Value.isNull_eq_false_of_fits_number hlower),
      hone (c := greatest) (Value.isNull_eq_false_of_fits_number hupper), List.singleton_append,
      List.singleton_append, List.singleton_append, Truth.all_cons, Truth.all_cons, Truth.all_cons,
      ih, ← Truth.and_assoc, truthOn_between path lower upper]

theorem checkActives_eq (h : Expands cs ds) : checkActives ds = checkActives cs := by
  induction h with
  | nil => rfl
  | @same c cs ds _ ih =>
    rw [← List.singleton_append, checkActives_append, ih, ← checkActives_append,
      List.singleton_append]
  | @range path lower upper cs ds hlower hupper _ ih =>
    let between : Criterion := ⟨path, .pair lower upper, .between⟩
    let least : Criterion := ⟨path, lower, .greaterEquals⟩
    let greatest : Criterion := ⟨path, upper, .lessEquals⟩
    have hbetween : between.value.Fits between.operator.expects :=
      Value.fits_pair_iff.mpr
        ⟨Value.isSingle_of_fits_number hlower, Value.isSingle_of_fits_number hupper⟩
    show checkActives ([least] ++ ([greatest] ++ ds)) = checkActives ([between] ++ cs)
    rw [checkActives_append, checkActives_append, checkActives_append, ih,
      checkActives_of_fits (c := between) rfl hbetween,
      checkActives_of_fits (c := least) (Value.isNull_eq_false_of_fits_number hlower) hlower,
      checkActives_of_fits (c := greatest) (Value.isNull_eq_false_of_fits_number hupper) hupper]
    cases Path.segments path <;> rfl

end Expands

end Criterion

namespace Filter

/-- The same filter, but for ranges of numbers that are given by their bounds. Alternatives are the
same. -/
structure Expands (f g : Filter) : Prop where
  criteria : Criterion.Expands f.criteria g.criteria
  orGroup : g.orGroup = f.orGroup

variable {f g : Filter}

theorem Expands.refl (f : Filter) : f.Expands f :=
  ⟨.refl _, rfl⟩

theorem Expands.alternatives_eq (h : f.Expands g) : g.alternatives = f.alternatives := by
  rw [alternatives, alternatives, h.orGroup]

theorem Expands.checkActives_eq (h : f.Expands g) :
    checkActives g.consulted = checkActives f.consulted := by
  rw [consulted, consulted, checkActives_append, checkActives_append, h.criteria.checkActives_eq,
    h.alternatives_eq]

/-- A range of numbers is added as one criterion or as its two bounds. -/
theorem expands_addBetween {lower upper : Value} (f : Filter) (path : String)
    (hlower : lower.Fits .number) (hupper : upper.Fits .number) :
    (f.addBetween path lower upper).Expands (f.addNumericRange path lower upper) := by
  have hbounds : bounds lower upper = .pair lower upper := by
    rw [bounds, Value.isNull_eq_false_of_fits_number hlower]
    rfl
  refine ⟨?_, rfl⟩
  show Criterion.Expands (f.criteria ++ [⟨path, bounds lower upper, .between⟩])
    (f.criteria ++ [⟨path, lower, .greaterEquals⟩] ++ [⟨path, upper, .lessEquals⟩])
  rw [hbounds, List.append_assoc]
  exact (Criterion.Expands.refl _).append (.range path hlower hupper .nil)

end Filter

namespace Visit

variable {vs ws : List Visit}

theorem checkActives_eq_of_expands (h : List.Forall₂ (Visit.Alike Filter.Expands) vs ws) :
    checkActives (ws.flatMap fun w => w.filter.consulted) =
      checkActives (vs.flatMap fun v => v.filter.consulted) := by
  induction h with
  | nil => rfl
  | cons alike _ ih =>
    rw [List.flatMap_cons, List.flatMap_cons, checkActives_append, checkActives_append,
      alike.filter.checkActives_eq, ih]

theorem all_truths_eq_of_expands (h : List.Forall₂ (Visit.Alike Filter.Expands) vs ws)
    (binding : Binding) :
    Truth.all (truths Filter.criteria binding ws) =
      Truth.all (truths Filter.criteria binding vs) := by
  induction h with
  | nil => rfl
  | cons alike _ ih =>
    rw [truths, truths, List.flatMap_cons, List.flatMap_cons, Truth.all_append, Truth.all_append,
      alike.traversal, alike.filter.criteria.all_truthsOn_eq]
    exact congrArg _ ih

theorem truths_alternatives_of_expands (h : List.Forall₂ (Visit.Alike Filter.Expands) vs ws)
    (binding : Binding) :
    truths Filter.alternatives binding ws = truths Filter.alternatives binding vs := by
  rw [truths, truths, List.flatMap_def, List.flatMap_def]
  congr 1
  refine map_eq_of_forall₂ (fun v w alike => ?_) h
  rw [alike.traversal, alike.filter.alternatives_eq]

end Visit

namespace Condition

/-- The same condition, but for ranges of numbers that are given by their bounds, on the documents
and on the rows of joins. -/
structure Expands (c c' : Condition) : Prop where
  filter : c.filter.Expands c'.filter
  joins : Join.Alike Filter.Expands c.joins c'.joins
  distinct : c'.distinct = c.distinct
  suppressFetch : c'.suppressFetch = c.suppressFetch

namespace Expands

variable {c c' : Condition}

theorem checkActives_eq (h : c.Expands c') :
    checkActives c'.consulted = checkActives c.consulted := by
  have hvisits := forall₂_visits h.joins h.suppressFetch .documents
  rw [consulted, consulted, checkActives_append, checkActives_append, h.filter.checkActives_eq,
    Visit.checkActives_eq_of_expands hvisits]

theorem eval_plan_eq (h : c.Expands c') (purpose : Purpose) (s : Scope) :
    (c'.plan purpose).predicate.eval s = (c.plan purpose).predicate.eval s := by
  obtain ⟨document, binding⟩ := s
  have hvisits : List.Forall₂ (Visit.Alike Filter.Expands) c.plainVisits c'.plainVisits :=
    h.joins.forall₂_visitsOf .join none 0
  rw [eval_plan, eval_plan, h.filter.criteria.all_truthsOn_eq, h.filter.alternatives_eq,
    Visit.all_truths_eq_of_expands hvisits, Visit.truths_alternatives_of_expands hvisits]

/-- The answers are the same, and so are the errors. -/
theorem outcome_run_eq (h : c.Expands c') (purpose : Purpose) (s : Store) :
    (s.run c' purpose).outcome = (s.run c purpose).outcome :=
  Store.outcome_run_congr h.checkActives_eq (traversals_plan_eq h.joins h.suppressFetch purpose)
    h.distinct (h.eval_plan_eq purpose) s

end Expands

end Condition

namespace Store

/-- Comparisons are what they are made of, in three-valued logic.

1. For every operand, a range is its two bounds, and being one of several values is being equal to
   one of them; being none of them is being unequal to each.
2. An order relation that allows equality is the strict relation or equality.
3. A collection is empty exactly if its size is zero.
4. The same holds of the operators, on every source.
5. A condition in which ranges of numbers are given by their bounds, on documents or on rows of
   joins, is run by every store to the same rows or to the same error.
6. In particular, this is so if one range of numbers is added to a condition. -/
theorem comparisons_expand :
    (∀ (s : Scope) (o : Operand),
      let truth (c : Comparison) : Truth := c.eval s
      (∀ lower upper, truth (.between o lower upper) =
        (truth (.greaterEquals o lower)).and (truth (.lessEquals o upper))) ∧
      (∀ vs, truth (.oneOf o vs) = Truth.any (vs.map fun v => truth (.equal o v))) ∧
      (∀ vs, (truth (.oneOf o vs)).not = Truth.all (vs.map fun v => truth (.notEqual o v))) ∧
      (∀ v, truth (.greaterEquals o v) = (truth (.greaterThan o v)).or (truth (.equal o v))) ∧
      ∀ v, truth (.lessEquals o v) = (truth (.lessThan o v)).or (truth (.equal o v))) ∧
    (∀ (s : Scope) (a : Attribute), (Comparison.isEmpty (.plain a)).eval s = .true ↔
      (Comparison.equal (.size a) (.int 0)).eval s = .true) ∧
    (∀ (s : Scope) (source : Source) (path : String),
      let truth (op : Operator) (v : Value) : Truth :=
        ((⟨path, v, op⟩ : Criterion).predicate source).eval s
      (∀ lower upper, truth .between (.pair lower upper) =
        (truth .greaterEquals lower).and (truth .lessEquals upper)) ∧
      (∀ vs, truth .isIn (.list vs) = Truth.any (vs.map (truth .equals))) ∧
      (∀ vs, truth .notIn (.list vs) = Truth.all (vs.map (truth .notEquals))) ∧
      (∀ op strict equality, op.OrEqual strict equality →
        ∀ v, truth op v = (truth strict v).or (truth equality v)) ∧
      ∀ v, truth .isEmpty v = .true ↔ truth .sizeEquals (.int 0) = .true) ∧
    (∀ c c' : Condition, c.Expands c' → ∀ (s : Store) (purpose : Purpose),
      (s.run c' purpose).outcome = (s.run c purpose).outcome) ∧
    ∀ (c : Condition) (path : String) (lower upper : Value),
      lower.Fits .number → upper.Fits .number → ∀ s : Store,
        (s.findAll { c with filter := c.filter.addBetween path lower upper }).outcome =
          (s.findAll { c with filter := c.filter.addNumericRange path lower upper }).outcome := by
  refine ⟨fun s o => ?_, fun s a => Comparison.eval_isEmpty_eq_true_iff s a,
    fun s source path => ?_, fun c c' h s purpose => h.outcome_run_eq purpose s,
    fun c path lower upper hlower hupper s => ?_⟩
  · exact ⟨fun lower upper => rfl, fun vs => rfl, Comparison.not_eval_oneOf s o,
      Comparison.eval_greaterEquals s o, Comparison.eval_lessEquals s o⟩
  · intro truth
    have hcompare (op : Operator) (v : Value) (comparison : Comparison)
        (h : (⟨path, v, op⟩ : Criterion).predicate source = .compare comparison) :
        truth op v = comparison.eval s := by
      show Predicate.eval s _ = _
      rw [h, Predicate.eval_compare]
    let plain : Operand := .plain ⟨source, path⟩
    have hsome (vs : List Value) : truth .isIn (.list vs) = (Comparison.oneOf plain vs).eval s :=
      hcompare .isIn (.list vs) _ rfl
    refine ⟨fun lower upper => ?_, fun vs => ?_, fun vs => ?_,
      fun op strict equality h v => Criterion.eval_of_orEqual h source s path v, fun v => ?_⟩
    · rw [hcompare .between _ _ rfl, hcompare .greaterEquals _ _ rfl,
        hcompare .lessEquals _ _ rfl]
      rfl
    · rw [hsome]
      exact congrArg Truth.any
        (List.map_congr_left fun v _ => (hcompare .equals v _ rfl).symm)
    · have hnone : truth .notIn (.list vs) = (truth .isIn (.list vs)).not :=
        Predicate.eval_not s _
      rw [hnone, hsome, Comparison.not_eval_oneOf]
      exact congrArg Truth.all
        (List.map_congr_left fun v _ => (hcompare .notEquals v _ rfl).symm)
    · rw [hcompare .isEmpty _ _ rfl, hcompare .sizeEquals _ _ rfl]
      exact Comparison.eval_isEmpty_eq_true_iff s _
  · have hexpands : Condition.Expands
        { c with filter := c.filter.addBetween path lower upper }
        { c with filter := c.filter.addNumericRange path lower upper } :=
      ⟨c.filter.expands_addBetween path hlower hupper, .refl Filter.Expands.refl c.joins, rfl, rfl⟩
    exact (hexpands.outcome_run_eq .documents s).symm

/-- A post that has been read twelve times, and one that nobody knows about. -/
def readTimes : Store where
  entity := "posts"
  documents :=
    [.object [("comments", .array [.object [("stars", .ofInt 4)]]), ("views", .ofInt 12)],
     .object [("comments", .array []), ("views", .text "many")]]

/-- Posts with a comment of three to five stars. -/
def starred (criteria : List Criterion) : Condition where
  joins := [{ key := "comments", kind := .inner, filter := { criteria } }]

/-- The first post is found, with ranges or with bounds, on the document and on the rows of the
join. -/
theorem comparisons_expand_starred :
    let range : List Criterion := [⟨"stars", .pair (.int 3) (.int 5), .between⟩]
    let bounds : List Criterion :=
      [⟨"stars", .int 3, .greaterEquals⟩, ⟨"stars", .int 5, .lessEquals⟩]
    (readTimes.findAll (starred bounds)).outcome = (readTimes.findAll (starred range)).outcome ∧
      (readTimes.findAll (starred range)).outcome.map List.length = .ok 1 ∧
      (readTimes.findAll
        { filter := Filter.addBetween {} "views" (.int 10) (.float .nan) }).outcome =
        (readTimes.findAll
          { filter := Filter.addNumericRange {} "views" (.int 10) (.float .nan) }).outcome ∧
      (Comparison.greaterEquals (.plain ⟨.root, "views"⟩) (.int 10)).eval
        ⟨.object [("views", .text "many")], []⟩ = .unknown := by
  intro range bounds
  obtain ⟨htruths, -, -, hruns, hranges⟩ := comparisons_expand
  have hthree : (Value.int 3).Fits .number := .inl ⟨3, rfl⟩
  have hfive : (Value.int 5).Fits .number := .inl ⟨5, rfl⟩
  have hten : (Value.int 10).Fits .number := .inl ⟨10, rfl⟩
  have hnan : (Value.float .nan).Fits .number := .inr ⟨.nan, rfl⟩
  have hexpands : (starred range).Expands (starred bounds) :=
    ⟨.refl _, .cons rfl rfl ⟨.range "stars" hthree hfive .nil, rfl⟩ .nil .nil, rfl, rfl⟩
  refine ⟨hruns _ _ hexpands readTimes .documents, ?_,
    hranges {} "views" _ _ hten hnan readTimes, ?_⟩
  · decide +kernel
  · obtain ⟨-, -, -, hgreaterEquals, -⟩ :=
      htruths ⟨.object [("views", .text "many")], []⟩ (.plain ⟨.root, "views"⟩)
    refine (hgreaterEquals (.int 10)).trans ?_
    decide +kernel

end Store

end Criteria
