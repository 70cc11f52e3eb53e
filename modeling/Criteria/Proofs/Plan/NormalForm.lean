import Criteria.Proofs.Condition.Skipping
import Criteria.Proofs.Store.Reordering

/-!
# Predicates in normal form

A plan is put together from clauses, any of which may be missing, in several places. A connective
without members is left out, and so is one with a single member, so no part of the predicate is
idle; and no criterion that takes part is lost on the way.

## Main definitions

- `Predicate.IsReduced`, `Predicate.IsNormal`: predicates without idle parts
- `Criterion.Makes`: the comparison that a criterion becomes
- `Condition.asked`: the criteria that a plan depends on, in the order in which it compares them

## Main statements

- `Predicate.isReduced_of_combine?`: a connective that leaves itself out makes no idle part
- `forall₂_comparisonsAsked`: a comparison for each criterion that takes part
- `Condition.isNormal_compile`: the predicate of a plan is in normal form and loses no criterion
-/

namespace Criteria

namespace Predicate

/-- A predicate without an idle part: a connective has several members, a negation is the one of
a comparison, and nothing is always true. -/
inductive IsReduced : Predicate → Prop
  | compare (q : Comparison) : IsReduced (.compare q)
  | not (q : Comparison) : IsReduced (.not (.compare q))
  | and {members : List Predicate} (several : 2 ≤ members.length)
    (each : ∀ m ∈ members, IsReduced m) : IsReduced (.and members)
  | or {members : List Predicate} (several : 2 ≤ members.length)
    (each : ∀ m ∈ members, IsReduced m) : IsReduced (.or members)

/-- No restriction by itself, or a predicate without an idle part. -/
def IsNormal (p : Predicate) : Prop :=
  p = .always ∨ p.IsReduced

/-- A connective that leaves itself out where it has a single member makes no idle part. -/
theorem isReduced_of_combine? {connective : List Predicate → Predicate}
    (hconnective : ∀ {members}, 2 ≤ members.length → (∀ m ∈ members, IsReduced m) →
      IsReduced (connective members))
    {members : List Predicate} (h : ∀ m ∈ members, IsReduced m) :
    ∀ p ∈ combine? connective members, IsReduced p := by
  intro p hp
  match members with
  | [] => cases hp
  | [member] =>
    obtain rfl := Option.mem_some_iff.mp hp
    exact h _ List.mem_cons_self
  | first :: second :: rest =>
    obtain rfl := Option.mem_some_iff.mp hp
    exact hconnective (by simp) h

theorem isReduced_of_all? {members : List Predicate} (h : ∀ m ∈ members, IsReduced m) :
    ∀ p ∈ all? members, IsReduced p :=
  isReduced_of_combine? .and h

theorem isReduced_of_any? {members : List Predicate} (h : ∀ m ∈ members, IsReduced m) :
    ∀ p ∈ any? members, IsReduced p :=
  isReduced_of_combine? .or h

/-- The conjunction of two parts, each of which may be missing. -/
theorem isReduced_of_parts {p q : Option Predicate} (hp : ∀ m ∈ p, IsReduced m)
    (hq : ∀ m ∈ q, IsReduced m) : ∀ m ∈ all? (p.toList ++ q.toList), IsReduced m := by
  refine isReduced_of_all? fun m hm => ?_
  rcases List.mem_append.mp hm with hleft | hright
  · exact hp m (Option.mem_toList.mp hleft)
  · exact hq m (Option.mem_toList.mp hright)

/-- A predicate without an idle part compares something. -/
theorem IsReduced.comparisons_ne_nil {p : Predicate} (h : p.IsReduced) : p.comparisons ≠ [] := by
  have hmembers {members : List Predicate} (several : 2 ≤ members.length)
      (ih : ∀ m ∈ members, m.comparisons ≠ []) : comparisonsOf members ≠ [] := by
    obtain ⟨m, hm⟩ := List.exists_mem_of_length_pos (Nat.lt_of_lt_of_le Nat.two_pos several)
    rw [comparisonsOf_eq, ne_eq, List.flatMap_eq_nil_iff]
    exact fun hall => ih m hm (hall m hm)
  induction h with
  | compare q => exact List.cons_ne_nil _ _
  | not q => exact List.cons_ne_nil _ _
  | and several _ ih => exact hmembers several ih
  | or several _ ih => exact hmembers several ih

theorem IsNormal.eq_always_iff {p : Predicate} (h : p.IsNormal) :
    p = .always ↔ p.comparisons = [] := by
  refine ⟨?_, fun hnone => h.resolve_right fun hreduced => hreduced.comparisons_ne_nil hnone⟩
  rintro rfl
  rfl

end Predicate

namespace Criterion

/-- The comparison is the one of a criterion: its predicate, or what that negates. -/
def Makes (source : Source) (k : Criterion) (q : Comparison) : Prop :=
  k.predicate source = .compare q ∨ k.predicate source = .not (.compare q)

theorem exists_makes (source : Source) (k : Criterion) : ∃ q, k.Makes source q := by
  obtain ⟨path, value, operator⟩ := k
  cases operator <;> first | exact ⟨_, .inl rfl⟩ | exact ⟨_, .inr rfl⟩

theorem Makes.comparisons_eq {source : Source} {k : Criterion} {q : Comparison}
    (h : k.Makes source q) : (k.predicate source).comparisons = [q] := by
  rcases h with h | h <;> rw [h] <;> rfl

theorem isReduced_predicate (source : Source) (k : Criterion) :
    (k.predicate source).IsReduced := by
  obtain ⟨q, h | h⟩ := k.exists_makes source
  · rw [h]
    exact .compare q
  · rw [h]
    exact .not q

end Criterion

theorem isReduced_of_mem_activePredicates {source : Source} {criteria : List Criterion}
    {p : Predicate} (h : p ∈ activePredicates source criteria) : p.IsReduced := by
  obtain ⟨k, -, rfl⟩ := List.mem_map.mp h
  exact k.isReduced_predicate source

namespace Filter

variable {source : Source} {f : Filter}

theorem isReduced_required :
    ∀ p ∈ (f.activeClauses source).required, Predicate.IsReduced p :=
  Predicate.isReduced_of_all? fun _ => isReduced_of_mem_activePredicates

theorem isReduced_alternative :
    ∀ p ∈ (f.activeClauses source).alternative, Predicate.IsReduced p :=
  Predicate.isReduced_of_any? fun _ => isReduced_of_mem_activePredicates

end Filter

/-- A criterion with the source that it looks at. -/
structure Question where
  source : Source
  criterion : Criterion

/-- Criteria that look at one source. -/
def Source.each (source : Source) (criteria : List Criterion) : List Question :=
  criteria.map (Question.mk source)

namespace Condition

theorem isReduced_rootClause (c : Condition) : ∀ p ∈ c.rootClause, Predicate.IsReduced p :=
  Predicate.isReduced_of_parts Filter.isReduced_required Filter.isReduced_alternative

theorem isReduced_joinClause (visits : List Visit) :
    ∀ p ∈ joinClause visits, Predicate.IsReduced p := by
  refine Predicate.isReduced_of_parts (Predicate.isReduced_of_all? fun p hp => ?_)
    (Predicate.isReduced_of_any? fun p hp => ?_)
  all_goals
    obtain ⟨clauses, hclauses, hp⟩ := List.mem_filterMap.mp hp
    obtain ⟨v, -, rfl⟩ := List.mem_map.mp hclauses
  · exact Filter.isReduced_required p hp
  · exact Filter.isReduced_alternative p hp

theorem isNormal_plan (c : Condition) (purpose : Purpose) :
    (c.plan purpose).predicate.IsNormal := by
  have hclauses := Predicate.isReduced_of_parts c.isReduced_rootClause
    (isReduced_joinClause (c.visits purpose))
  rw [plan]
  cases hp : Predicate.all? (c.rootClause.toList ++ (joinClause (c.visits purpose)).toList) with
  | none => exact .inl rfl
  | some p => exact .inr (hclauses p hp)

/-- The criteria that a plan depends on, each with the source that it looks at: those of the
documents and their alternatives, then the criteria of all joins in preorder, and then the
alternatives of all joins in preorder. -/
def asked (c : Condition) : List Question :=
  let joins := (Join.locatedAll [] c.joins).zipIdx
  Source.root.each c.filter.criteria ++ Source.root.each c.filter.alternatives ++
    joins.flatMap (fun (l, i) => (Source.join i).each l.join.filter.criteria) ++
    joins.flatMap fun (l, i) => (Source.join i).each l.join.filter.alternatives

end Condition

/-- The comparisons of those criteria that take part. -/
def comparisonsAsked (asked : List Question) : List Comparison :=
  (asked.filter fun a => !a.criterion.isSkipped).flatMap fun a =>
    (a.criterion.predicate a.source).comparisons

theorem comparisonsAsked_append (asked more : List Question) :
    comparisonsAsked (asked ++ more) = comparisonsAsked asked ++ comparisonsAsked more := by
  rw [comparisonsAsked, List.filter_append, List.flatMap_append]
  rfl

theorem comparisonsAsked_flatMap {α : Type} (f : α → List Question) (as : List α) :
    comparisonsAsked (as.flatMap f) = as.flatMap fun a => comparisonsAsked (f a) := by
  rw [comparisonsAsked, List.filter_flatMap, List.flatMap_assoc]
  rfl

theorem comparisonsAsked_each (source : Source) (criteria : List Criterion) :
    comparisonsAsked (source.each criteria) = comparisonsOn source criteria := by
  rw [comparisonsAsked, Source.each, List.filter_map, List.flatMap_map, comparisonsOn,
    activePredicates, List.flatMap_map]
  rfl

/-- There is one comparison for each criterion that takes part, in the same order. -/
theorem forall₂_comparisonsAsked (asked : List Question) :
    List.Forall₂ (fun a q => a.criterion.Makes a.source q)
      (asked.filter fun a => !a.criterion.isSkipped) (comparisonsAsked asked) := by
  rw [comparisonsAsked]
  induction asked.filter fun a => !a.criterion.isSkipped with
  | nil => exact .nil
  | cons first rest ih =>
    obtain ⟨q, hq⟩ := first.criterion.exists_makes first.source
    rw [List.flatMap_cons, hq.comparisons_eq]
    exact .cons hq ih

namespace Condition

/-- The joins that a plan visits are those of its condition in preorder, with their places. -/
theorem flatMap_comparisonsOn_visits (c : Condition) (purpose : Purpose)
    (criteria : Filter → List Criterion) :
    (c.visits purpose).flatMap (fun v =>
        comparisonsOn (.join v.traversal.id) (criteria v.filter)) =
      comparisonsAsked ((Join.locatedAll [] c.joins).zipIdx.flatMap fun (l, i) =>
        (Source.join i).each (criteria l.join.filter)) := by
  have hvisits := congrArg (List.flatMap fun (f, i) => comparisonsOn (.join i) (criteria f))
    (c.map_filter_id_visits purpose)
  rw [List.flatMap_map, List.flatMap_map] at hvisits
  simp only [comparisonsAsked_flatMap, comparisonsAsked_each]
  exact hvisits

theorem comparisons_plan_eq (c : Condition) (purpose : Purpose) :
    (c.plan purpose).predicate.comparisons = comparisonsAsked c.asked := by
  simp only [comparisons_plan, flatMap_comparisonsOn_visits, asked, comparisonsAsked_append,
    comparisonsAsked_each, List.append_assoc]

/-- What is asked for are the criteria that a plan depends on, each once. -/
theorem map_asked_perm (c : Condition) : (c.asked.map (·.criterion)).Perm c.consulted := by
  have heach (source : Source) (criteria : List Criterion) :
      (source.each criteria).map (·.criterion) = criteria := by
    rw [Source.each, List.map_map]
    exact List.map_id' criteria
  have hjoins (criteria : Filter → List Criterion) :
      ((Join.locatedAll [] c.joins).zipIdx.flatMap fun (l, i) =>
        (Source.join i).each (criteria l.join.filter)).map (·.criterion) =
      (Join.locatedAll [] c.joins).flatMap fun l => criteria l.join.filter := by
    simp only [List.map_flatMap, heach]
    conv_rhs => rw [← List.zipIdx_map_fst 0 (Join.locatedAll [] c.joins), List.flatMap_map]
  rw [consulted_eq_located, asked, List.map_append, List.map_append, List.map_append, heach, heach,
    hjoins, hjoins, List.append_assoc (_ ++ _)]
  exact (List.flatMap_append_perm _ _ _).append_left _

/-- The predicate of a plan is in normal form and loses no criterion.

1. It is no restriction by itself, or a predicate in which nothing is always true, every connective
   has two members at least, and a negation stands around a comparison only.
2. Its comparisons are, from left to right, one for each criterion that takes part: those of the
   documents, their alternatives, the criteria of all joins in preorder, and the alternatives of
   all joins in preorder, where those of a join look at its own traversal.
3. These are the criteria that the plan depends on, each of which is either compared or skipped.
4. There is no restriction only if every one of them is skipped. -/
theorem isNormal_compile {c : Condition} {purpose : Purpose} {p : Plan}
    (h : c.compile purpose = .ok p) :
    p.predicate.IsNormal ∧
    List.Forall₂ (fun a q => a.criterion.Makes a.source q)
      (c.asked.filter fun a => !a.criterion.isSkipped) p.predicate.comparisons ∧
    (c.asked.map (·.criterion)).Perm c.consulted ∧
    p.predicate.comparisons.length + p.skipped = c.consulted.length ∧
    (p.predicate = .always ↔ ∀ k ∈ c.consulted, k.isSkipped = true) := by
  obtain ⟨-, rfl⟩ := compile_eq_ok_iff.mp h
  have hperm := c.map_asked_perm
  have hone := forall₂_comparisonsAsked c.asked
  rw [← c.comparisons_plan_eq purpose] at hone
  have hskipped : (c.plan purpose).skipped =
      (c.asked.map (·.criterion)).countP Criterion.isSkipped :=
    (hperm.countP_eq Criterion.isSkipped).symm
  have hkept : (c.asked.filter fun a => !a.criterion.isSkipped).length =
      (takingPart (c.asked.map (·.criterion))).length := by
    rw [takingPart, List.filter_map, List.length_map]
    rfl
  have hlength : (c.plan purpose).predicate.comparisons.length + (c.plan purpose).skipped =
      c.consulted.length := by
    rw [← hone.length_eq, hkept, hskipped, ← hperm.length_eq, Nat.add_comm,
      countP_isSkipped_add_length]
  refine ⟨c.isNormal_plan purpose, hone, hperm, hlength, ?_⟩
  -- without a comparison, as many criteria are skipped as there are
  rw [(c.isNormal_plan purpose).eq_always_iff, ← List.countP_eq_length, ← List.length_eq_zero_iff,
    ← hperm.countP_eq, ← hskipped]
  omega

/-- Posts with a title or an open topic, of which the author has a team or the comments have
readers. -/
def toldPosts : Condition where
  filter :=
    { criteria := [⟨"title", .null, .notNull⟩, ⟨"views", .null, .equals⟩]
      orGroup := some { criteria := [⟨"topic", .text "open", .notContains⟩] } }
  joins :=
    [{ key := "author", kind := .left,
       filter := { criteria := [⟨"active", .bool true, .equals⟩]
                   orGroup := some { criteria := [⟨"team", .null, .notNull⟩] } } },
     { key := "comments", kind := .inner,
       filter := { criteria := [⟨"age", .int 3, .lessThan⟩]
                   orGroup := some { criteria := [⟨"readers", .null, .isNotEmpty⟩] } } }]

/-- Six criteria are compared, and those of all joins before their alternatives. -/
theorem isNormal_compile_toldPosts : ∃ p, toldPosts.compile .documents = .ok p ∧
    p.predicate.IsNormal ∧ p.predicate ≠ .always ∧ p.predicate.comparisons.length + 1 = 7 ∧
    p.predicate.comparisons.map (·.operand.target) =
      [⟨.root, "title"⟩, ⟨.root, "topic"⟩, ⟨.join 0, "active"⟩, ⟨.join 1, "age"⟩,
        ⟨.join 0, "team"⟩, ⟨.join 1, "readers"⟩] := by
  have hcompile : toldPosts.compile .documents = .ok (toldPosts.plan .documents) :=
    compile_eq_ok_iff.mpr ⟨by decide, rfl⟩
  obtain ⟨hnormal, -, -, hlength, halways⟩ := isNormal_compile hcompile
  refine ⟨_, hcompile, hnormal, ?_, hlength, rfl⟩
  rw [ne_eq, halways]
  decide

end Condition

end Criteria
