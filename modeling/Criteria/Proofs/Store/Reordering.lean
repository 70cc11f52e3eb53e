import Mathlib.Data.List.Perm.Basic
import Criteria.Proofs.Plan.Alike
import Criteria.Proofs.Store.Narrowing

/-!
# The order of criteria does not matter

Criteria may be permuted within each group of a condition. Conjunction and disjunction in
three-valued logic are commutative, so the predicate has the same truth everywhere, although it
looks at its comparisons in another order and may stop at another one.

## Main definitions

- `Filter.Reordered`, `Condition.Reordered`: the same groups with their criteria in another order

## Main statements

- `Condition.Reordered.eval_plan_eq`: the predicates have the same truth
- `Condition.Reordered.comparisons_perm`: they look at the same comparisons
- `Condition.Reordered.same_answers`: the answers are the same
-/

namespace Criteria

namespace Truth

instance : Std.Commutative Truth.and := ⟨and_comm⟩

instance : Std.Associative Truth.and := ⟨and_assoc⟩

instance : Std.Commutative Truth.or := ⟨or_comm⟩

instance : Std.Associative Truth.or := ⟨or_assoc⟩

variable {ts us : List Truth}

theorem all_perm (h : ts.Perm us) : all ts = all us :=
  h.foldl_op_eq

theorem any_perm (h : ts.Perm us) : any ts = any us :=
  h.foldl_op_eq

theorem pool_perm (h : ts.Perm us) : pool ts = pool us := by
  refine pool_congr ⟨?_, ?_⟩ (any_perm h)
  · rintro rfl
    exact h.nil_eq.symm
  · rintro rfl
    exact h.eq_nil

end Truth

namespace Filter

/-- Filters with the same criteria in another order, and with groups of which the same holds. -/
inductive Reordered : Filter → Filter → Prop
  | single {cs ds : List Criterion} (criteria : cs.Perm ds) : Reordered ⟨cs, none⟩ ⟨ds, none⟩
  | group {cs ds : List Criterion} {f g : Filter} (criteria : cs.Perm ds) (below : Reordered f g) :
    Reordered ⟨cs, some f⟩ ⟨ds, some g⟩

variable {f g : Filter}

theorem Reordered.criteria_perm (h : Reordered f g) : f.criteria.Perm g.criteria := by
  cases h with
  | single criteria => exact criteria
  | group criteria _ => exact criteria

theorem Reordered.alternatives_perm (h : Reordered f g) :
    f.alternatives.Perm g.alternatives := by
  cases h with
  | single _ => exact .refl _
  | group _ below => exact below.criteria_perm

theorem Reordered.consulted_perm (h : Reordered f g) : f.consulted.Perm g.consulted :=
  h.criteria_perm.append h.alternatives_perm

end Filter

theorem truthsOn_perm {cs ds : List Criterion} (h : cs.Perm ds) (row : Option Json) :
    (truthsOn row cs).Perm (truthsOn row ds) :=
  (h.filter _).map _

/-- Visits that are alike give lists that are permutations of each other if each visit does. -/
theorem Visit.flatMap_perm_of_forall₂ {β : Type} {R : Filter → Filter → Prop} {vs ws : List Visit}
    {f : Visit → List β} (hf : ∀ v w, Visit.Alike R v w → (f v).Perm (f w))
    (h : List.Forall₂ (Visit.Alike R) vs ws) : (vs.flatMap f).Perm (ws.flatMap f) := by
  induction h with
  | nil => exact .refl _
  | cons alike _ ih =>
    rw [List.flatMap_cons, List.flatMap_cons]
    exact (hf _ _ alike).append ih

namespace Predicate

theorem comparisonsOf_eq (members : List Predicate) :
    comparisonsOf members = members.flatMap comparisons := by
  induction members with
  | nil => rfl
  | cons member rest ih => rw [comparisonsOf, ih, List.flatMap_cons]

/-- A conjunction has the comparisons of its members, with or without a connective. -/
theorem flatMap_comparisons_all? (members : List Predicate) :
    (all? members).toList.flatMap comparisons = members.flatMap comparisons := by
  match members with
  | [] => rfl
  | [member] => rfl
  | first :: second :: rest => simp [all?, combine?, comparisons, comparisonsOf_eq]

theorem flatMap_comparisons_any? (members : List Predicate) :
    (any? members).toList.flatMap comparisons = members.flatMap comparisons := by
  match members with
  | [] => rfl
  | [member] => rfl
  | first :: second :: rest => simp [any?, combine?, comparisons, comparisonsOf_eq]

theorem comparisons_getD_always (p : Option Predicate) :
    (p.getD .always).comparisons = p.toList.flatMap comparisons := by
  cases p <;> simp [comparisons]

end Predicate

/-- The comparisons of the criteria that take part. -/
def comparisonsOn (source : Source) (criteria : List Criterion) : List Comparison :=
  (activePredicates source criteria).flatMap Predicate.comparisons

theorem comparisonsOn_perm {cs ds : List Criterion} (h : cs.Perm ds) (source : Source) :
    (comparisonsOn source cs).Perm (comparisonsOn source ds) :=
  ((h.filter _).map _).flatMap_right _

namespace Condition

/-- The comparisons of a plan, from those of the documents to those of the alternatives of
joins. -/
theorem comparisons_plan (c : Condition) (purpose : Purpose) :
    (c.plan purpose).predicate.comparisons =
      comparisonsOn .root c.filter.criteria ++ comparisonsOn .root c.filter.alternatives ++
      ((c.visits purpose).flatMap (fun v =>
        comparisonsOn (.join v.traversal.id) v.filter.criteria) ++
      (c.visits purpose).flatMap fun v =>
        comparisonsOn (.join v.traversal.id) v.filter.alternatives) := by
  simp only [plan, rootClause, joinClause, Filter.activeClauses, Predicate.comparisons_getD_always,
    Predicate.flatMap_comparisons_all?, Predicate.flatMap_comparisons_any?, List.flatMap_append,
    List.filterMap_eq_flatMap_toList, List.flatMap_map, List.flatMap_assoc, comparisonsOn]

/-- Conditions that are the same but for the order of the criteria in each of their groups. -/
structure Reordered (c c' : Condition) : Prop where
  filter : c.filter.Reordered c'.filter
  joins : Join.Alike Filter.Reordered c.joins c'.joins
  distinct : c'.distinct = c.distinct
  suppressFetch : c'.suppressFetch = c.suppressFetch

namespace Reordered

variable {c c' : Condition}

theorem visits (h : c.Reordered c') (purpose : Purpose) :
    List.Forall₂ (Visit.Alike Filter.Reordered) (c.visits purpose) (c'.visits purpose) :=
  forall₂_visits h.joins h.suppressFetch purpose

theorem consulted_perm (h : c.Reordered c') : c.consulted.Perm c'.consulted :=
  h.filter.consulted_perm.append <|
    Visit.flatMap_perm_of_forall₂ (fun _ _ alike => alike.filter.consulted_perm)
      (h.visits .documents)

theorem compile_eq_ok_iff (h : c.Reordered c') (purpose : Purpose) :
    c'.compile purpose = .ok (c'.plan purpose) ↔ c.compile purpose = .ok (c.plan purpose) := by
  simp only [Condition.compile_eq_ok_iff, and_true, checkActives_eq_ok_iff,
    h.consulted_perm.mem_iff]

theorem comparisons_perm (h : c.Reordered c') (purpose : Purpose) :
    (c.plan purpose).predicate.comparisons.Perm (c'.plan purpose).predicate.comparisons := by
  have hvisits {criteria : Filter → List Criterion}
      (hperm : ∀ f g : Filter, f.Reordered g → (criteria f).Perm (criteria g)) :
      ((c.visits purpose).flatMap fun v =>
        comparisonsOn (.join v.traversal.id) (criteria v.filter)).Perm
      ((c'.visits purpose).flatMap fun v =>
        comparisonsOn (.join v.traversal.id) (criteria v.filter)) := by
    refine Visit.flatMap_perm_of_forall₂ (fun v w alike => ?_) (h.visits purpose)
    rw [alike.traversal]
    exact comparisonsOn_perm (hperm _ _ alike.filter) _
  rw [comparisons_plan, comparisons_plan]
  exact ((comparisonsOn_perm h.filter.criteria_perm _).append
    (comparisonsOn_perm h.filter.alternatives_perm _)).append
    ((hvisits fun _ _ => Filter.Reordered.criteria_perm).append
      (hvisits fun _ _ => Filter.Reordered.alternatives_perm))

/-- Truths on the rows of joins come in another order as well. -/
theorem truths_perm (h : c.Reordered c') {criteria : Filter → List Criterion}
    (hperm : ∀ f g : Filter, f.Reordered g → (criteria f).Perm (criteria g)) (binding : Binding) :
    (Visit.truths criteria binding c.plainVisits).Perm
      (Visit.truths criteria binding c'.plainVisits) := by
  refine Visit.flatMap_perm_of_forall₂ (fun v w alike => ?_)
    (h.joins.forall₂_visitsOf .join none 0)
  rw [alike.traversal]
  exact truthsOn_perm (hperm _ _ alike.filter) _

/-- The predicates have the same truth on all documents and rows. -/
theorem eval_plan_eq (h : c.Reordered c') (purpose : Purpose) (s : Scope) :
    (c'.plan purpose).predicate.eval s = (c.plan purpose).predicate.eval s := by
  obtain ⟨document, binding⟩ := s
  have hcriteria := h.truths_perm (fun _ _ => Filter.Reordered.criteria_perm) binding
  have halternatives := h.truths_perm (fun _ _ => Filter.Reordered.alternatives_perm) binding
  rw [eval_plan, eval_plan,
    Truth.all_perm (truthsOn_perm h.filter.criteria_perm (some document)),
    Truth.pool_perm (truthsOn_perm h.filter.alternatives_perm (some document)),
    Truth.all_perm hcriteria, Truth.pool_perm halternatives]

theorem skipped_plan_eq (h : c.Reordered c') (purpose : Purpose) :
    (c'.plan purpose).skipped = (c.plan purpose).skipped :=
  (h.consulted_perm.countP_eq _).symm

end Reordered

end Condition

namespace Plan

variable {p q : Plan}

theorem selectBy_congr (hdistinct : q.distinct = p.distinct)
    (counts : Json → Except ExecutionError (Nat × Nat)) (found : List Json)
    (scanned evaluated : Nat) (documents : List Json) :
    q.selectBy counts found scanned evaluated documents =
      p.selectBy counts found scanned evaluated documents := by
  have hcopies (n : Nat) : q.copies n = p.copies n := by rw [copies, copies, hdistinct]
  induction documents generalizing found scanned evaluated with
  | nil => rfl
  | cons document rest ih => simp only [selectBy, hcopies, ih]

/-- Plans with the same traversals, of which the predicates have the same truth, select the same
documents with every engine that refuses no pattern of theirs. -/
theorem selectWith_congr {engine : PatternEngine} (hp : engine.Usable p) (hq : engine.Usable q)
    (htraversals : q.traversals = p.traversals) (hdistinct : q.distinct = p.distinct)
    (heval : ∀ s, q.predicate.eval s = p.predicate.eval s) (limit : Nat)
    (documents : List Json) :
    q.selectWith engine limit documents = p.selectWith engine limit documents := by
  have hcounts : q.counts (max limit 1) = p.counts (max limit 1) := by
    funext document
    simp only [counts, htraversals, heval]
  rw [selectWith_eq_selectBy_counts hq, selectWith_eq_selectBy_counts hp, hcounts]
  exact selectBy_congr hdistinct _ [] 0 0 documents

end Plan

namespace Condition.Reordered

variable {c c' : Condition}

theorem usable_plan (h : c.Reordered c') {engine : PatternEngine} {purpose : Purpose}
    (husable : engine.Usable (c.plan purpose)) : engine.Usable (c'.plan purpose) :=
  fun operand pattern hmem =>
    husable operand pattern ((h.comparisons_perm purpose).mem_iff.mpr hmem)

theorem selectWith_plan_eq (h : c.Reordered c') {engine : PatternEngine} {purpose : Purpose}
    (husable : engine.Usable (c.plan purpose)) (limit : Nat) (documents : List Json) :
    (c'.plan purpose).selectWith engine limit documents =
      (c.plan purpose).selectWith engine limit documents :=
  Plan.selectWith_congr husable (h.usable_plan husable)
    (traversals_plan_eq h.joins h.suppressFetch purpose) h.distinct (h.eval_plan_eq purpose) limit
    documents

theorem outcome_run_eq (h : c.Reordered c') {purpose : Purpose}
    (hcompile : c.compile purpose = .ok (c.plan purpose)) (s : Store) :
    (s.run c' purpose).outcome = (s.run c purpose).outcome := by
  have hselect : (c'.plan purpose).select s.settings.bindingLimit s.documents =
      (c.plan purpose).select s.settings.bindingLimit s.documents :=
    h.selectWith_plan_eq (PatternEngine.standard_usable _) _ _
  rw [Store.outcome_run_of_compile_eq_ok ((h.compile_eq_ok_iff purpose).mpr hcompile),
    Store.outcome_run_of_compile_eq_ok hcompile, hselect]

/-- The order of criteria within the groups of a condition does not matter.

1. If one of the two conditions compiles, so does the other. If not, each is refused with an
   error of its own.
2. The plans have the same traversals, skip as many criteria and are distinct together. Their
   predicates have the same comparisons and the same truth on all documents and rows. They select
   the same documents, with an evaluator over any engine that refuses no pattern of the first. So
   every store runs them to the same rows, or fails with the same error.
3. In particular every store finds the same documents. -/
theorem same_answers (h : c.Reordered c') :
    (∀ purpose, (∃ p, c'.compile purpose = .ok p) ↔ ∃ p, c.compile purpose = .ok p) ∧
    (∀ purpose p, c.compile purpose = .ok p → ∃ p', c'.compile purpose = .ok p' ∧
      p'.traversals = p.traversals ∧ p'.skipped = p.skipped ∧ p'.distinct = p.distinct ∧
      p.predicate.comparisons.Perm p'.predicate.comparisons ∧
      (∀ s, p'.predicate.eval s = p.predicate.eval s) ∧
      (∀ engine : PatternEngine, engine.Usable p → ∀ limit documents,
        p'.selectWith engine limit documents = p.selectWith engine limit documents) ∧
      ∀ s : Store, (s.run c' purpose).outcome = (s.run c purpose).outcome) ∧
    ∀ p, c.compile .documents = .ok p →
      ∀ s : Store, (s.findAll c').outcome = (s.findAll c).outcome := by
  have heq {b : Condition} {purpose : Purpose} {p : Plan} (hp : b.compile purpose = .ok p) :
      b.compile purpose = .ok (b.plan purpose) ∧ p = b.plan purpose := by
    obtain ⟨-, rfl⟩ := Condition.compile_eq_ok_iff.mp hp
    exact ⟨hp, rfl⟩
  refine ⟨fun purpose => ⟨?_, ?_⟩, fun purpose p hp => ?_, fun p hp s => ?_⟩
  · rintro ⟨p', hp'⟩
    exact ⟨_, (h.compile_eq_ok_iff purpose).mp (heq hp').1⟩
  · rintro ⟨p, hp⟩
    exact ⟨_, (h.compile_eq_ok_iff purpose).mpr (heq hp).1⟩
  · obtain ⟨hcompile, rfl⟩ := heq hp
    exact ⟨c'.plan purpose, (h.compile_eq_ok_iff purpose).mpr hcompile,
      traversals_plan_eq h.joins h.suppressFetch purpose, h.skipped_plan_eq purpose, h.distinct,
      h.comparisons_perm purpose, h.eval_plan_eq purpose,
      fun _ husable limit documents => h.selectWith_plan_eq husable limit documents,
      h.outcome_run_eq hcompile⟩
  · exact h.outcome_run_eq (heq hp).1 s

end Condition.Reordered

namespace Store

/-- Published posts about Lean that are pinned or have been read often, with a comment that is
approved or has no user. -/
def readPosts : Condition where
  filter :=
    { criteria := [⟨"published", .bool true, .equals⟩, ⟨"title", .text "Lean", .contains⟩]
      orGroup := some {
        criteria := [⟨"pinned", .bool true, .equals⟩, ⟨"views", .int 9, .greaterThan⟩] } }
  joins :=
    [{ key := "comments", kind := .inner,
       filter := { orGroup := some {
         criteria := [⟨"approved", .bool true, .equals⟩, ⟨"user", .null, .isNull⟩] } } }]

/-- The same with the criteria of each group in reverse. -/
def readPostsReversed : Condition where
  filter :=
    { criteria := [⟨"title", .text "Lean", .contains⟩, ⟨"published", .bool true, .equals⟩]
      orGroup := some {
        criteria := [⟨"views", .int 9, .greaterThan⟩, ⟨"pinned", .bool true, .equals⟩] } }
  joins :=
    [{ key := "comments", kind := .inner,
       filter := { orGroup := some {
         criteria := [⟨"user", .null, .isNull⟩, ⟨"approved", .bool true, .equals⟩] } } }]

theorem same_answers_readPosts : (∃ p, readPostsReversed.compile .documents = .ok p) ∧
    ∀ s : Store, (s.findAll readPostsReversed).outcome = (s.findAll readPosts).outcome := by
  have hfilter : readPosts.filter.Reordered readPostsReversed.filter :=
    .group (.swap _ _ []) (.single (.swap _ _ []))
  have hjoins : Join.Alike Filter.Reordered readPosts.joins readPostsReversed.joins :=
    .cons rfl rfl (.group (.refl _) (.single (.swap _ _ []))) .nil .nil
  obtain ⟨hboth, -, hanswers⟩ := Condition.Reordered.same_answers ⟨hfilter, hjoins, rfl, rfl⟩
  have hcompile : readPosts.compile .documents = .ok (readPosts.plan .documents) :=
    Condition.compile_eq_ok_iff.mpr ⟨by decide, rfl⟩
  exact ⟨(hboth .documents).mpr ⟨_, hcompile⟩, hanswers _ hcompile⟩

end Store

end Criteria
