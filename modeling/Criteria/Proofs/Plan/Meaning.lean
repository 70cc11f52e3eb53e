import Criteria.Evaluation
import Criteria.Proofs.Plan.WellFormed
import Mathlib.Data.List.Basic

/-!
# The meaning of a plan

The predicate of a plan says of a document and its rows what the condition says: a conjunction
in three-valued logic of the truths of its criteria, in which each group of alternatives counts
as one disjunction.

## Main definitions

- `Criterion.truthOn`: the truth of a criterion on a row
- `Condition.rows`: the joins of a condition with the rows that a binding has for them
- `Condition.conjuncts`: the truths that a condition asks for

## Main statements

- `Condition.eval_compile`: the predicate of a plan is the conjunction of what its condition
  asks for
-/

namespace Criteria

namespace Truth

/-- The disjunction of truths as the one member of a conjunction, which is empty without
them. -/
def pool : List Truth → List Truth
  | [] => []
  | t :: ts => [any (t :: ts)]

@[simp] theorem any_append (ts us : List Truth) : any (ts ++ us) = (any ts).or (any us) := by
  rw [any, List.foldl_append, foldl_or]
  rfl

@[simp] theorem any_pool (ts : List Truth) : any (pool ts) = any ts := by
  cases ts <;> simp [pool]

theorem pool_eq_nil_iff {ts : List Truth} : pool ts = [] ↔ ts = [] := by
  cases ts <;> simp [pool]

/-- Two lists of truths make the same pool if they have the same disjunction and are empty
together. -/
theorem pool_congr {ts us : List Truth} (hempty : ts = [] ↔ us = []) (hany : any ts = any us) :
    pool ts = pool us := by
  cases ts with
  | nil => rw [hempty.mp rfl]
  | cons t ts =>
    cases us with
    | nil => exact absurd (hempty.mpr rfl) (List.cons_ne_nil t ts)
    | cons u us => rw [pool, pool, hany]

/-- Pools can be pooled in turn. -/
theorem pool_flatMap_pool {α : Type} (f : α → List Truth) (as : List α) :
    pool (as.flatMap fun a => pool (f a)) = pool (as.flatMap f) := by
  apply pool_congr
  · simp only [List.flatMap_eq_nil_iff, pool_eq_nil_iff]
  · induction as with
    | nil => rfl
    | cons a rest ih => simp only [List.flatMap_cons, any_append, any_pool, ih]

/-- A conjunction of conjunctions. -/
theorem all_flatMap {α : Type} (f g : α → List Truth) (as : List α)
    (h : ∀ a ∈ as, all (f a) = all (g a)) : all (as.flatMap f) = all (as.flatMap g) := by
  induction as with
  | nil => rfl
  | cons a rest ih =>
    rw [List.flatMap_cons, List.flatMap_cons, all_append, all_append, h a List.mem_cons_self,
      ih fun b hb => h b (List.mem_cons_of_mem a hb)]

end Truth

namespace Predicate

/-- A conjunction is as true as its members together, with or without a connective. -/
theorem all_eval_all? (s : Scope) (members : List Predicate) :
    Truth.all ((all? members).toList.map (eval s)) = Truth.all (members.map (eval s)) := by
  match members with
  | [] => rfl
  | [member] => rfl
  | first :: second :: rest => simp [all?, combine?]

/-- A disjunction counts as one member, and as none without members. -/
theorem map_eval_any? (s : Scope) (members : List Predicate) :
    (any? members).toList.map (eval s) = Truth.pool (members.map (eval s)) := by
  match members with
  | [] => rfl
  | [member] => simp [any?, combine?, Truth.pool]
  | first :: second :: rest => simp [any?, combine?, Truth.pool]

theorem eval_getD_always (s : Scope) (p : Option Predicate) :
    eval s (p.getD .always) = Truth.all (p.toList.map (eval s)) := by
  cases p <;> simp

end Predicate

namespace Criterion

/-- A criterion looks at nothing but the value of its attribute. -/
theorem eval_predicate_of_attribute? {path path' : String} {s t : Scope} {a b : Source}
    (h : s.attribute? ⟨a, path⟩ = t.attribute? ⟨b, path'⟩) (value : Value) (operator : Operator) :
    (predicate ⟨path, value, operator⟩ a).eval s =
      (predicate ⟨path', value, operator⟩ b).eval t := by
  unfold predicate
  cases operator <;>
    simp only [Predicate.eval_compare, Predicate.eval_not, Comparison.eval, likeComparison,
      Operator.ignoresCase, Scope.operand?, h, if_true, if_false, Bool.false_eq_true]

/-- The truth of a criterion on a row, which may be missing. -/
def truthOn (c : Criterion) (row : Option Json) : Truth :=
  (c.predicate (.join 0)).eval ⟨.null, [row]⟩

theorem eval_predicate (c : Criterion) (s : Scope) (source : Source) :
    (c.predicate source).eval s = c.truthOn (s.base? source) := by
  refine eval_predicate_of_attribute? ?_ c.value c.operator
  simp [Scope.attribute?, Scope.base?]

/-- Criteria with the same comparison agree where their paths lead to the same value. -/
theorem truthOn_congr {path path' : String} {row row' : Option Json}
    (h : row.bind (·.resolve? path) = row'.bind (·.resolve? path')) (value : Value)
    (operator : Operator) :
    truthOn ⟨path, value, operator⟩ row = truthOn ⟨path', value, operator⟩ row' := by
  refine eval_predicate_of_attribute? ?_ value operator
  simp [Scope.attribute?, Scope.base?, h]

end Criterion

/-- The truths on a row of the criteria that take part. -/
def truthsOn (row : Option Json) (criteria : List Criterion) : List Truth :=
  (criteria.filter fun c => !c.isSkipped).map fun c => c.truthOn row

theorem map_eval_activePredicates (s : Scope) (source : Source) (criteria : List Criterion) :
    (activePredicates source criteria).map (Predicate.eval s) =
      truthsOn (s.base? source) criteria := by
  rw [activePredicates, truthsOn, List.map_map]
  exact List.map_congr_left fun c _ => c.eval_predicate s source

namespace Condition

/-- The joins of a condition in preorder, each with the row that a binding has for it. -/
def rows (c : Condition) (binding : Binding) : List (Join × Option Json) :=
  (Join.locatedAll [] c.joins).zipIdx.map fun (l, i) => (l.join, binding[i]?.join)

/-- What a condition asks of a document and the rows of its joins: the criteria of the document,
one of its alternatives, the criteria of all joins, and one of the alternatives of all joins
together. -/
def conjuncts (c : Condition) (document : Json) (binding : Binding) : List Truth :=
  truthsOn (some document) c.filter.criteria ++
    Truth.pool (truthsOn (some document) c.filter.alternatives) ++
    (c.rows binding).flatMap (fun (j, row) => truthsOn row j.filter.criteria) ++
    Truth.pool ((c.rows binding).flatMap fun (j, row) => truthsOn row j.filter.alternatives)

theorem all_eval_rootClause (c : Condition) (s : Scope) :
    Truth.all (c.rootClause.toList.map (Predicate.eval s)) =
      (Truth.all (truthsOn (some s.document) c.filter.criteria)).and
        (Truth.all (Truth.pool (truthsOn (some s.document) c.filter.alternatives))) := by
  rw [rootClause, Predicate.all_eval_all?, List.map_append, Truth.all_append]
  simp only [Filter.activeClauses, Predicate.all_eval_all?, Predicate.map_eval_any?,
    map_eval_activePredicates, Scope.base?]

theorem all_eval_joinClause (visits : List Visit) (s : Scope) :
    Truth.all ((joinClause visits).toList.map (Predicate.eval s)) =
      (Truth.all (visits.flatMap fun v =>
        truthsOn s.binding[v.traversal.id]?.join v.filter.criteria)).and
      (Truth.all (Truth.pool (visits.flatMap fun v =>
        truthsOn s.binding[v.traversal.id]?.join v.filter.alternatives))) := by
  rw [joinClause, Predicate.all_eval_all?, List.map_append, Truth.all_append,
    Predicate.all_eval_all?, Predicate.map_eval_any?]
  simp only [List.filterMap_eq_flatMap_toList, List.flatMap_map, List.map_flatMap,
    Filter.activeClauses, Predicate.map_eval_any?, map_eval_activePredicates, Scope.base?,
    Truth.pool_flatMap_pool]
  congr 1
  apply Truth.all_flatMap
  intro v _
  rw [Predicate.all_eval_all?, map_eval_activePredicates, Scope.base?]

/-- The visits of a condition are those of its joins in preorder, each with its place as its
number. -/
theorem map_filter_id_visits (c : Condition) (purpose : Purpose) :
    (c.visits purpose).map (fun v => (v.filter, v.traversal.id)) =
      (Join.locatedAll [] c.joins).zipIdx.map fun (l, i) => (l.join.filter, i) := by
  have hlength : (c.visits purpose).length = (Join.locatedAll [] c.joins).length := by
    simpa using congrArg List.length (c.filter_visits purpose)
  rw [← List.zip_map', c.filter_visits purpose, c.id_visits purpose, hlength,
    List.zipIdx_eq_zip_range', List.range_eq_range', List.zip_map_left]
  rfl

/-- The visits of a condition have the filters of its joins, and its rows by their numbers. -/
theorem map_visits_rows (c : Condition) (purpose : Purpose) (binding : Binding) :
    (c.visits purpose).map (fun v => (v.filter, binding[v.traversal.id]?.join)) =
      (c.rows binding).map fun (j, row) => (j.filter, row) := by
  calc (c.visits purpose).map (fun v => (v.filter, binding[v.traversal.id]?.join))
      = ((c.visits purpose).map fun v => (v.filter, v.traversal.id)).map
          fun (f, i) => (f, binding[i]?.join) := by
        rw [List.map_map]
        rfl
    _ = (c.rows binding).map fun (j, row) => (j.filter, row) := by
        rw [map_filter_id_visits, rows, List.map_map, List.map_map]
        rfl

/-- The predicate of a plan is the conjunction of what its condition asks for, where each join
is looked at on the row of its own traversal. -/
theorem eval_compile {c : Condition} {purpose : Purpose} {p : Plan}
    (h : c.compile purpose = .ok p) :
    Traversal.paths p.traversals = (Join.locatedAll [] c.joins).map (·.path) ∧
      ∀ document binding,
        p.predicate.eval ⟨document, binding⟩ = Truth.all (c.conjuncts document binding) := by
  obtain ⟨-, rfl⟩ := compile_eq_ok_iff.mp h
  refine ⟨c.paths_visits purpose, fun document binding => ?_⟩
  have hrows (f : Filter → List Criterion) :
      (c.visits purpose).flatMap (fun v => truthsOn binding[v.traversal.id]?.join (f v.filter)) =
        (c.rows binding).flatMap fun (j, row) => truthsOn row (f j.filter) := by
    have h := congrArg (List.flatMap fun (filter, row) => truthsOn row (f filter))
      (c.map_visits_rows purpose binding)
    rwa [List.flatMap_map, List.flatMap_map] at h
  rw [plan, Predicate.eval_getD_always, Predicate.all_eval_all?, List.map_append,
    Truth.all_append, all_eval_rootClause, all_eval_joinClause, hrows Filter.criteria,
    hrows Filter.alternatives]
  simp only [conjuncts, Truth.all_append, Truth.and_assoc]

/-- Published posts of public teams of which the author is not hidden or a comment is pinned. -/
def publicPosts : Condition where
  filter := { criteria := [⟨"published", .bool true, .equals⟩, ⟨"title", .null, .equals⟩] }
  joins :=
    [{ key := "author", kind := .left,
       filter := { orGroup := some { criteria := [⟨"hidden", .null, .isNull⟩] } },
       children := [{ key := "team", kind := .left,
                      filter := { criteria := [⟨"public", .bool true, .equals⟩] } }] },
     { key := "comments", kind := .inner,
       filter := { orGroup := some { criteria := [⟨"pinned", .bool true, .equals⟩] } } }]

/-- A post with a hidden author of no team: whether the team is public is unknown. -/
theorem eval_compile_publicPosts : ∃ p, publicPosts.compile .number = .ok p ∧
    Traversal.paths p.traversals =
      [[⟨"author", .left⟩], [⟨"author", .left⟩, ⟨"team", .left⟩], [⟨"comments", .inner⟩]] ∧
    p.predicate.eval ⟨.object [("published", .bool true)],
      [some (.object [("hidden", .bool true)]), none, some (.object [("pinned", .bool true)])]⟩ =
        .unknown := by
  have h : publicPosts.compile .number = .ok (publicPosts.plan .number) :=
    compile_eq_ok_iff.mpr ⟨by decide, rfl⟩
  obtain ⟨hpaths, heval⟩ := eval_compile h
  refine ⟨publicPosts.plan .number, h, hpaths, ?_⟩
  rw [heval]
  decide

end Condition

end Criteria
