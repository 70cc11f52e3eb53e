import Mathlib.Data.List.Lex
import Criteria.Proofs.Join.Order
import Criteria.Proofs.Store.Reordering

/-!
# The traversals of a plan and the joins of its condition

A compilation walks through the joins of a condition and numbers them as it meets them. Each visit
adds one traversal at the end, and its parent is one that has been met. So the traversals are the
joins in preorder, the loop that climbs from a traversal to the document ends, and the comparisons
with the number of a traversal come from the filter of its join.

## Main definitions

- `Join.Node`, `Join.nodes`: the joins of a forest in preorder, with the top joins of their trees
- `Join.Node.HasParent`: the parent of a join among those met before it
- `Join.Walk`: visits that have been made of joins
- `Plan.Climbs`: the keys from a traversal up to the document

## Main statements

- `Join.walk_topVisits`: the visits of a condition are a walk through its joins
- `Join.pairwise_lex_path`: in preorder, paths increase
- `Join.Walk.climbs`: climbing from a traversal ends at the document
- `Condition.traversals_faithful`: the traversals of a plan, their paths and their comparisons
-/

namespace Criteria

namespace Join

/-- A join of a forest, with the top join of its tree and the identities that lead to it. -/
structure Node extends Located where
  top : Join

/-- The joins of a tree in preorder, below `above` in the tree of `top`. -/
def nodesUnder (top : Join) (located : List Located) : List Node :=
  located.map fun l => ⟨l, top⟩

/-- The joins of a forest in preorder, with the top joins of their trees. -/
def nodes (joins : List Join) : List Node :=
  joins.flatMap fun top => nodesUnder top (located [] top)

theorem map_toLocated_nodesUnder (top : Join) (located : List Located) :
    (nodesUnder top located).map (·.toLocated) = located := by
  rw [nodesUnder, List.map_map]
  exact List.map_id' located

theorem map_toLocated_nodes (joins : List Join) :
    (nodes joins).map (·.toLocated) = locatedAll [] joins := by
  induction joins with
  | nil => rfl
  | cons j rest ih =>
    rw [nodes, List.flatMap_cons, List.map_append, map_toLocated_nodesUnder, locatedAll, ← ih]
    rfl

theorem countAll_eq_sum (joins : List Join) : countAll joins = (joins.map count).sum := by
  induction joins with
  | nil => rfl
  | cons j rest ih => rw [countAll, ih, List.map_cons, List.sum_cons]

mutual

theorem length_located (above : List JoinIdentity) (j : Join) :
    (located above j).length = j.count := by
  obtain ⟨key, kind, filter, children, fetch⟩ := j
  rw [located, count, List.length_cons, length_locatedAll _ children]

theorem length_locatedAll (above : List JoinIdentity) (joins : List Join) :
    (locatedAll above joins).length = countAll joins := by
  cases joins with
  | nil => rfl
  | cons j rest =>
    rw [locatedAll, countAll, List.length_append, length_located above j,
      length_locatedAll above rest]

end

theorem length_nodes (joins : List Join) : (nodes joins).length = (joins.map count).sum := by
  rw [← countAll_eq_sum, ← length_locatedAll [], ← map_toLocated_nodes, List.length_map]

namespace Node

/-- The parent of a join among those met before it: none if the join is the top of its tree, and
otherwise a join of the same tree of which it is a child. -/
def HasParent (met : List Node) (n : Node) : Option Nat → Prop
  | none => n.join = n.top ∧ n.path = [n.join.identity]
  | some id => ∃ above, met[id]? = some above ∧ n.top = above.top ∧
      n.join ∈ above.join.children ∧ n.path = above.path ++ [n.join.identity]

theorem HasParent.append {met : List Node} {n : Node} {parent : Option Nat}
    (h : n.HasParent met parent) (more : List Node) : n.HasParent (met ++ more) parent := by
  cases parent with
  | none => exact h
  | some id =>
    obtain ⟨above, habove, hchild⟩ := h
    have hlt : id < met.length := (List.getElem?_eq_some_iff.mp habove).1
    exact ⟨above, by rw [List.getElem?_append_left hlt, habove], hchild⟩

/-- A join that has its parent among the first joins has it among all. -/
theorem HasParent.of_take {met : List Node} {n : Node} {i id : Nat}
    (h : n.HasParent (met.take i) (some id)) : id < i ∧ n.HasParent met (some id) := by
  obtain ⟨above, habove, hchild⟩ := h
  rw [List.getElem?_take] at habove
  split at habove
  · rename_i hlt
    exact ⟨hlt, above, habove, hchild⟩
  · cases habove

theorem HasParent.path_ne_nil {met : List Node} {n : Node} {parent : Option Nat}
    (h : n.HasParent met parent) : n.path ≠ [] := by
  cases parent with
  | none =>
    rw [h.2]
    exact List.cons_ne_nil _ _
  | some id =>
    obtain ⟨above, -, -, -, hpath⟩ := h
    rw [hpath]
    exact List.append_ne_nil_of_right_ne_nil _ (List.cons_ne_nil _ _)

end Node

/-- A visit is the one of a join after others. The mode is the one of the top join. -/
structure Visited (mayFetch : Bool) (met : List Node) (v : Visit) (n : Node) : Prop where
  id : v.traversal.id = met.length
  identity : v.traversal.identity = n.join.identity
  mode : v.traversal.mode = n.top.mode mayFetch
  filter : v.filter = n.join.filter
  parent : n.HasParent met v.traversal.parent

/-- Visits that have been made of joins, one after the other. -/
inductive Walk (mayFetch : Bool) : List Visit → List Node → Prop
  | nil : Walk mayFetch [] []
  | visit {vs : List Visit} {ns : List Node} {v : Visit} {n : Node} (before : Walk mayFetch vs ns)
    (last : Visited mayFetch ns v n) : Walk mayFetch (vs ++ [v]) (ns ++ [n])

section Walk

variable {mayFetch : Bool}

theorem Walk.length_eq {vs : List Visit} {ns : List Node} (h : Walk mayFetch vs ns) :
    vs.length = ns.length := by
  induction h with
  | nil => rfl
  | visit _ _ ih => rw [List.length_append, List.length_append, ih]; rfl

/-- Each visit of a walk is made of the join with the same number, after those before it. -/
theorem Walk.visited {vs : List Visit} {ns : List Node} (h : Walk mayFetch vs ns) {i : Nat}
    {v : Visit} {n : Node} (hv : vs[i]? = some v) (hn : ns[i]? = some n) :
    Visited mayFetch (ns.take i) v n := by
  induction h with
  | nil => cases hv
  | @visit vs ns w m before last ih =>
    have hlength := before.length_eq
    have hi : i < vs.length + 1 := by simpa using (List.getElem?_eq_some_iff.mp hv).1
    by_cases hlt : i < vs.length
    · rw [List.getElem?_append_left hlt] at hv
      rw [List.getElem?_append_left (hlength ▸ hlt)] at hn
      rw [List.take_append_of_le_length (by omega)]
      exact ih hv hn
    · obtain rfl : i = vs.length := by omega
      rw [List.getElem?_concat_length, Option.some_inj] at hv
      rw [hlength, List.getElem?_concat_length, Option.some_inj] at hn
      rw [hlength, List.take_left, ← hv, ← hn]
      exact last

mutual

/-- Visiting the joins of a tree goes on with a walk. -/
theorem walk_visits {vs : List Visit} {ns : List Node} (top : Join) (parent : Option Nat)
    (above : List JoinIdentity) (j : Join) (h : Walk mayFetch vs ns)
    (hparent : Node.HasParent ns ⟨⟨above ++ [j.identity], j⟩, top⟩ parent) :
    Walk mayFetch (vs ++ visits (top.mode mayFetch) parent vs.length j)
      (ns ++ nodesUnder top (located above j)) := by
  obtain ⟨key, kind, filter, children, fetch⟩ := j
  let j : Join := ⟨key, kind, filter, children, fetch⟩
  let v : Visit := ⟨⟨vs.length, parent, key, kind, top.mode mayFetch⟩, filter⟩
  let n : Node := ⟨⟨above ++ [j.identity], j⟩, top⟩
  have hown : Walk mayFetch (vs ++ [v]) (ns ++ [n]) :=
    .visit h ⟨h.length_eq, rfl, rfl, rfl, hparent⟩
  have hplace : (ns ++ [n])[vs.length]? = some n := by
    rw [h.length_eq, List.getElem?_concat_length]
  have hbelow := walk_visitsOf top (some vs.length) (above ++ [j.identity]) children hown
    fun child hchild => ⟨n, hplace, rfl, hchild, rfl⟩
  rw [List.length_append, List.append_assoc, List.append_assoc] at hbelow
  rw [visits, located]
  exact hbelow

theorem walk_visitsOf {vs : List Visit} {ns : List Node} (top : Join) (parent : Option Nat)
    (above : List JoinIdentity) (joins : List Join) (h : Walk mayFetch vs ns)
    (hparent : ∀ j ∈ joins, Node.HasParent ns ⟨⟨above ++ [j.identity], j⟩, top⟩ parent) :
    Walk mayFetch (vs ++ visitsOf (top.mode mayFetch) parent vs.length joins)
      (ns ++ nodesUnder top (locatedAll above joins)) := by
  cases joins with
  | nil =>
    rw [visitsOf, locatedAll, nodesUnder, List.map_nil, List.append_nil, List.append_nil]
    exact h
  | cons j rest =>
    have hhere := walk_visits top parent above j h (hparent j List.mem_cons_self)
    have hrest := walk_visitsOf top parent above rest hhere
      fun k hk => (hparent k (List.mem_cons_of_mem j hk)).append _
    rw [List.length_append, List.append_assoc, List.append_assoc] at hrest
    rw [visitsOf, locatedAll, nodesUnder, List.map_append]
    exact hrest

end

/-- The visits of a condition are a walk through its joins. -/
theorem walk_topVisits {vs : List Visit} {ns : List Node} (joins : List Join)
    (h : Walk mayFetch vs ns) :
    Walk mayFetch (vs ++ topVisits mayFetch vs.length joins) (ns ++ nodes joins) := by
  induction joins generalizing vs ns with
  | nil =>
    rw [topVisits, nodes, List.flatMap_nil, List.append_nil, List.append_nil]
    exact h
  | cons j rest ih =>
    have hhere := walk_visits j none [] j h ⟨rfl, rfl⟩
    have hrest := ih hhere
    rw [List.length_append, List.append_assoc, List.append_assoc] at hrest
    rw [topVisits, nodes, List.flatMap_cons]
    exact hrest

end Walk

mutual

/-- The path of a join begins with the one of the tree that it belongs to. -/
theorem prefix_of_mem_located {above : List JoinIdentity} {j : Join} {l : Located}
    (h : l ∈ located above j) : above ++ [j.identity] <+: l.path := by
  obtain ⟨key, kind, filter, children, fetch⟩ := j
  rw [located] at h
  rcases List.mem_cons.mp h with rfl | hbelow
  · exact List.prefix_refl _
  · obtain ⟨child, -, hprefix⟩ := exists_prefix_of_mem_locatedAll hbelow
    exact (List.prefix_append _ _).trans hprefix

theorem exists_prefix_of_mem_locatedAll {above : List JoinIdentity} {joins : List Join}
    {l : Located} (h : l ∈ locatedAll above joins) :
    ∃ j ∈ joins, above ++ [j.identity] <+: l.path := by
  cases joins with
  | nil => cases h
  | cons j rest =>
    rw [locatedAll] at h
    rcases List.mem_append.mp h with hhere | hrest
    · exact ⟨j, List.mem_cons_self, prefix_of_mem_located hhere⟩
    · obtain ⟨k, hk, hprefix⟩ := exists_prefix_of_mem_locatedAll hrest
      exact ⟨k, List.mem_cons_of_mem j hk, hprefix⟩

end

mutual

/-- In the preorder of a tree with siblings in order, paths increase. -/
theorem pairwise_lex_located (above : List JoinIdentity) (j : Join) (h : Ordered j.children) :
    (located above j).Pairwise fun l m => List.Lex JoinIdentity.Before l.path m.path := by
  obtain ⟨key, kind, filter, children, fetch⟩ := j
  rw [located]
  refine .cons (fun l hl => ?_) (pairwise_lex_locatedAll _ children h)
  -- a path is before those that go on from it
  obtain ⟨child, -, rest, hpath⟩ := exists_prefix_of_mem_locatedAll hl
  rw [← hpath, List.append_assoc]
  simpa only [List.append_nil] using
    List.Lex.append_left JoinIdentity.Before
      (show List.Lex JoinIdentity.Before [] ([child.identity] ++ rest) from .nil)
      (above ++ [⟨key, kind⟩])

theorem pairwise_lex_locatedAll (above : List JoinIdentity) (joins : List Join)
    (h : Ordered joins) :
    (locatedAll above joins).Pairwise fun l m => List.Lex JoinIdentity.Before l.path m.path := by
  cases joins with
  | nil => exact .nil
  | cons j rest =>
    cases h with | cons first children others =>
    rw [locatedAll]
    refine List.pairwise_append.mpr ⟨pairwise_lex_located above j children,
      pairwise_lex_locatedAll above rest others, fun l hl m hm => ?_⟩
    obtain ⟨x, hx⟩ := prefix_of_mem_located hl
    obtain ⟨k, hk, y, hy⟩ := exists_prefix_of_mem_locatedAll hm
    rw [← hx, ← hy, List.append_assoc, List.append_assoc]
    exact List.Lex.append_left _ (.rel (first k hk)) _

end

/-- In preorder, paths increase, if siblings stand in order. -/
theorem pairwise_lex_path {joins : List Join} (h : Ordered joins) :
    ((nodes joins).map (·.path)).Pairwise (List.Lex JoinIdentity.Before) := by
  have hpaths : (nodes joins).map (·.path) = (locatedAll [] joins).map (·.path) := by
    rw [← map_toLocated_nodes, List.map_map]
    rfl
  rw [hpaths]
  exact List.pairwise_map.mpr (pairwise_lex_locatedAll [] joins h)

end Join

namespace Plan

/-- The keys on the way from a traversal up to the document, as a loop finds them that goes from
each traversal to its parent. There is such a way only if the loop ends. -/
inductive Climbs (ts : List Traversal) : Option Nat → List String → Prop
  | top : Climbs ts none []
  | missing {id : Nat} (h : ts[id]? = none) : Climbs ts (some id) []
  | step {id : Nat} {t : Traversal} {keys : List String} (h : ts[id]? = some t)
    (above : Climbs ts t.parent keys) : Climbs ts (some id) (t.key :: keys)

/-- With enough fuel, the keys that are found are those on the way up. -/
theorem Climbs.keysUp_eq {ts : List Traversal} {start : Option Nat} {keys : List String}
    (h : Climbs ts start keys) {fuel : Nat} (hfuel : keys.length ≤ fuel) :
    start.elim [] (keysUp ts fuel) = keys := by
  induction h generalizing fuel with
  | top => rfl
  | @missing id h =>
    cases fuel with
    | zero => rfl
    | succ fuel => simp [keysUp, h]
  | @step id t keys h above ih =>
    cases fuel with
    | zero => simp at hfuel
    | succ fuel =>
      have hkeys : t.parent.elim [] (keysUp ts fuel) = keys := ih (by simpa using hfuel)
      simp only [Option.elim_some, keysUp, h]
      rw [← hkeys]
      cases t.parent <;> rfl

/-- The path of a traversal is made of the keys on the way up, if these are no more than there are
traversals. -/
theorem Climbs.traversalPath?_eq {p : Plan} {id : Nat} {keys : List String}
    (h : Climbs p.traversals (some id) keys) (hlength : keys.length ≤ p.traversals.length) :
    p.traversalPath? id = if keys = [] then none else some (Text.join "." keys.reverse) := by
  have hkeys : keysUp p.traversals p.traversals.length id = keys := h.keysUp_eq hlength
  rw [traversalPath?, hkeys]
  cases keys <;> rfl

end Plan

namespace Join

/-- The keys along a path. -/
def keysOf (path : List JoinIdentity) : List String :=
  path.map (·.key)

variable {mayFetch : Bool} {vs : List Visit} {ns : List Node}

theorem Walk.getElem?_traversals (h : Walk mayFetch vs ns) {i : Nat} {n : Node}
    (hn : ns[i]? = some n) :
    ∃ v, (Visit.traversals vs)[i]? = some v.traversal ∧ Visited mayFetch (ns.take i) v n := by
  have hi : i < vs.length := by
    rw [h.length_eq]
    exact (List.getElem?_eq_some_iff.mp hn).1
  refine ⟨vs[i], ?_, h.visited (List.getElem?_eq_getElem hi) hn⟩
  rw [Visit.traversals, List.getElem?_map, List.getElem?_eq_getElem hi]
  rfl

/-- Climbing from a traversal ends at the document, after the keys of its join. Each parent has a
smaller number, so there are no more keys than traversals. -/
theorem Walk.climbs (h : Walk mayFetch vs ns) {i : Nat} {n : Node} (hn : ns[i]? = some n) :
    Plan.Climbs (Visit.traversals vs) (some i) (keysOf n.path).reverse ∧
      n.path.length ≤ i + 1 := by
  induction i using Nat.strongRecOn generalizing n with
  | ind i ih =>
    obtain ⟨v, hv, hvisited⟩ := h.getElem?_traversals hn
    have hkey : v.traversal.key = n.join.key := congrArg JoinIdentity.key hvisited.identity
    have hparent := hvisited.parent
    cases hup : v.traversal.parent with
    | none =>
      rw [hup] at hparent
      obtain ⟨-, hpath⟩ := hparent
      have habove : Plan.Climbs (Visit.traversals vs) v.traversal.parent [] := by
        rw [hup]
        exact .top
      rw [hpath]
      refine ⟨?_, by simp⟩
      show Plan.Climbs _ _ [n.join.key]
      rw [← hkey]
      exact .step hv habove
    | some id =>
      rw [hup] at hparent
      obtain ⟨hid, above, habove, -, -, hpath⟩ := hparent.of_take
      obtain ⟨hclimbs, hlength⟩ := ih id hid habove
      rw [← hup] at hclimbs
      rw [hpath]
      refine ⟨?_, by rw [List.length_append, List.length_singleton]; omega⟩
      have hkeys : (keysOf (above.path ++ [n.join.identity])).reverse =
          v.traversal.key :: (keysOf above.path).reverse := by
        rw [keysOf, List.map_append, List.reverse_append, hkey]
        rfl
      rw [hkeys]
      exact .step hv hclimbs

end Join

theorem Criterion.target_of_mem_comparisons {k : Criterion} {source : Source} {q : Comparison}
    (h : q ∈ (k.predicate source).comparisons) : q.operand.target = ⟨source, k.path⟩ := by
  obtain ⟨path, value, operator⟩ := k
  cases operator <;>
    simp only [predicate, likeComparison, Operator.ignoresCase, Predicate.comparisons,
      List.mem_singleton, Bool.false_eq_true, if_true, if_false] at h <;>
    subst h <;> rfl

/-- The comparison is one of a criterion that takes part. -/
def Criterion.Asks (source : Source) (criteria : List Criterion) (q : Comparison) : Prop :=
  ∃ k ∈ criteria, k.isSkipped = false ∧ q ∈ (k.predicate source).comparisons

theorem mem_comparisonsOn_iff {source : Source} {criteria : List Criterion} {q : Comparison} :
    q ∈ comparisonsOn source criteria ↔ Criterion.Asks source criteria q := by
  simp only [comparisonsOn, activePredicates, List.flatMap_map, List.mem_flatMap, List.mem_filter,
    Bool.not_eq_true', and_assoc, Criterion.Asks]

theorem Criterion.asks_append_iff {source : Source} {cs ds : List Criterion} {q : Comparison} :
    Asks source (cs ++ ds) q ↔ Asks source cs q ∨ Asks source ds q := by
  simp only [Asks, List.mem_append, or_and_right, exists_or]

namespace Condition

/-- The comparisons of a plan are those of the criteria of documents, and those of the criteria of
joins. -/
theorem mem_comparisons_plan_iff {c : Condition} {purpose : Purpose} {q : Comparison} :
    q ∈ (c.plan purpose).predicate.comparisons ↔
      Criterion.Asks .root c.filter.consulted q ∨
        ∃ v ∈ c.visits purpose, Criterion.Asks (.join v.traversal.id) v.filter.consulted q := by
  rw [comparisons_plan]
  simp only [List.mem_append, List.mem_flatMap, mem_comparisonsOn_iff, Filter.consulted,
    Criterion.asks_append_iff, and_or_left, exists_or]

theorem walk_visits (c : Condition) (purpose : Purpose) :
    Join.Walk (c.mayFetch purpose) (c.visits purpose) (Join.nodes c.joins) := by
  have hstart : Join.Walk (c.mayFetch purpose) [] [] := .nil
  exact Join.walk_topVisits c.joins hstart

theorem length_traversals_plan (c : Condition) (purpose : Purpose) :
    (c.plan purpose).traversals.length = (Join.nodes c.joins).length := by
  rw [← (c.walk_visits purpose).length_eq]
  exact List.length_map _

/-- The path of a traversal is the one of its join. -/
theorem climbs_plan {c : Condition} {i : Nat} {n : Join.Node}
    (hn : (Join.nodes c.joins)[i]? = some n) (purpose : Purpose) :
    Plan.Climbs (c.plan purpose).traversals (some i) (Join.keysOf n.path).reverse ∧
      (c.plan purpose).traversalPath? i = some (Text.join "." (Join.keysOf n.path)) := by
  obtain ⟨hclimbs, hshort⟩ := (c.walk_visits purpose).climbs hn
  obtain ⟨v, -, hvisited⟩ := (c.walk_visits purpose).getElem?_traversals hn
  have hi : i < (Join.nodes c.joins).length := (List.getElem?_eq_some_iff.mp hn).1
  have hfuel : (Join.keysOf n.path).reverse.length ≤ (c.plan purpose).traversals.length := by
    rw [length_traversals_plan, List.length_reverse, Join.keysOf, List.length_map]
    omega
  have hkeys : (Join.keysOf n.path).reverse ≠ [] := by
    rw [ne_eq, List.reverse_eq_nil_iff, Join.keysOf, List.map_eq_nil_iff]
    exact hvisited.parent.path_ne_nil
  refine ⟨hclimbs, ?_⟩
  rw [Plan.Climbs.traversalPath?_eq hclimbs hfuel, if_neg hkeys, List.reverse_reverse]

/-- A number without a join has no path. -/
theorem climbs_plan_of_missing {c : Condition} {i : Nat} (hn : (Join.nodes c.joins)[i]? = none)
    (purpose : Purpose) :
    Plan.Climbs (c.plan purpose).traversals (some i) [] ∧
      (c.plan purpose).traversalPath? i = none := by
  have hmissing : (c.plan purpose).traversals[i]? = none := by
    rw [List.getElem?_eq_none_iff, length_traversals_plan]
    exact List.getElem?_eq_none_iff.mp hn
  have hclimbs : Plan.Climbs (c.plan purpose).traversals (some i) [] := .missing hmissing
  exact ⟨hclimbs, hclimbs.traversalPath?_eq (Nat.zero_le _)⟩

theorem mode_eq_fetch_iff (c : Condition) (purpose : Purpose) (top : Join) :
    top.mode (c.mayFetch purpose) = .fetch ↔
      purpose = .documents ∧ c.suppressFetch = false ∧ top.fetch = true := by
  rw [Join.mode, mayFetch]
  cases purpose <;> cases c.suppressFetch <;> cases top.fetch <;> decide

/-- The traversals of a plan are the joins of its condition.

1. There is one traversal for each join. The joins are met in preorder, and in the order of their
   paths, compared by keys and kinds, if siblings stand in order.
2. Each traversal has its place for its number, and the key and the kind of its join. Its parent
   has a smaller number and stands for the join of which its own is a child; a top join has none.
   It loads its rows if the query is for documents and does not suppress this, and if the top join
   of its tree is to load them, whatever the joins below say.
3. The loop from a traversal to its parents ends for every number. It gives the keys on the way from
   the top join, and the numbers without a traversal are those without a path.
4. Each comparison comes from a criterion that takes part: of the documents, or of the join with
   the number that the comparison looks at. -/
theorem traversals_faithful {c : Condition} {purpose : Purpose} {p : Plan}
    (h : c.compile purpose = .ok p) :
    let nodes := Join.nodes c.joins
    nodes.map (·.toLocated) = Join.locatedAll [] c.joins ∧
    nodes.length = p.traversals.length ∧ p.traversals.length = (c.joins.map Join.count).sum ∧
    (Join.Ordered c.joins → (nodes.map (·.path)).Pairwise (List.Lex JoinIdentity.Before)) ∧
    (∀ (i : Nat) (t : Traversal) (n : Join.Node), p.traversals[i]? = some t → nodes[i]? = some n →
      t.id = i ∧ t.key = n.join.key ∧ t.kind = n.join.kind ∧
      (∀ parent, t.parent = some parent → parent < i) ∧ n.HasParent nodes t.parent ∧
      (t.mode = .fetch ↔
        purpose = .documents ∧ c.suppressFetch = false ∧ n.top.fetch = true)) ∧
    (∀ i : Nat, match nodes[i]? with
      | some n => Plan.Climbs p.traversals (some i) (Join.keysOf n.path).reverse ∧
          p.traversalPath? i = some (Text.join "." (Join.keysOf n.path))
      | none => Plan.Climbs p.traversals (some i) [] ∧ p.traversalPath? i = none) ∧
    (∀ i : Nat, p.traversalPath? i = none ↔ p.traversals.length ≤ i) ∧
    ∀ q ∈ p.predicate.comparisons,
      match q.operand.target.source with
      | .root => Criterion.Asks .root c.filter.consulted q
      | .join id => id < p.traversals.length ∧ ∃ n, nodes[id]? = some n ∧
          Criterion.Asks (.join id) n.join.filter.consulted q := by
  intro nodes
  obtain ⟨-, rfl⟩ := compile_eq_ok_iff.mp h
  have hwalk := c.walk_visits purpose
  have hlength : (c.plan purpose).traversals.length = nodes.length :=
    length_traversals_plan c purpose
  refine ⟨Join.map_toLocated_nodes _, hlength.symm, hlength.trans (Join.length_nodes _),
    Join.pairwise_lex_path, fun i t n ht hn => ?_, fun i => ?_, fun i => ?_, fun q hq => ?_⟩
  · obtain ⟨v, hv, hvisited⟩ := hwalk.getElem?_traversals hn
    obtain rfl : v.traversal = t := Option.some.inj (hv.symm.trans ht)
    obtain ⟨hkey, hkind⟩ := JoinIdentity.mk.inj hvisited.identity
    have hi : i < nodes.length := (List.getElem?_eq_some_iff.mp hn).1
    have hid : v.traversal.id = i := by
      rw [hvisited.id, List.length_take, Nat.min_eq_left (Nat.le_of_lt hi)]
    have hparent := hvisited.parent
    refine ⟨hid, hkey, hkind, fun parent hup => ?_, ?_, ?_⟩
    · rw [hup] at hparent
      exact hparent.of_take.1
    · rw [← List.take_append_drop i nodes]
      exact hparent.append _
    · rw [hvisited.mode]
      exact c.mode_eq_fetch_iff purpose n.top
  · cases hn : nodes[i]? with
    | none => exact climbs_plan_of_missing hn purpose
    | some n => exact climbs_plan hn purpose
  · rw [hlength, ← List.getElem?_eq_none_iff]
    cases hn : nodes[i]? with
    | none => simp [(climbs_plan_of_missing hn purpose).2]
    | some n => simp [(climbs_plan hn purpose).2]
  · rcases mem_comparisons_plan_iff.mp hq with hroot | ⟨v, hv, hjoin⟩
    · obtain ⟨k, hmem, htakes, hk⟩ := hroot
      rw [Criterion.target_of_mem_comparisons hk]
      exact ⟨k, hmem, htakes, hk⟩
    · obtain ⟨i, hi, rfl⟩ := List.mem_iff_getElem.mp hv
      have hn : i < nodes.length := by rwa [← hwalk.length_eq]
      have hvisited := hwalk.visited (List.getElem?_eq_getElem hi) (List.getElem?_eq_getElem hn)
      have hid : (c.visits purpose)[i].traversal.id = i := by
        rw [hvisited.id, List.length_take, Nat.min_eq_left (Nat.le_of_lt hn)]
      rw [hvisited.filter, hid] at hjoin
      obtain ⟨k, hmem, htakes, hk⟩ := hjoin
      rw [Criterion.target_of_mem_comparisons hk]
      exact ⟨by rwa [hlength], _, List.getElem?_eq_getElem hn, k, hmem, htakes, hk⟩

/-- Posts with their comments, where the author is asked for but not loaded, and neither is the
company below. -/
def unloadedAuthors : Condition where
  joins :=
    [{ key := "author", kind := .inner, fetch := false,
       children := [{ key := "company", kind := .left,
                      filter := { criteria := [⟨"public", .bool true, .equals⟩] } }] },
     { key := "comments", kind := .left }]

/-- The company is not loaded although its own flag is set. -/
theorem traversals_faithful_unloadedAuthors : ∃ p,
    unloadedAuthors.compile .documents = .ok p ∧ p.traversals.length = 3 ∧
      p.traversals.map (·.mode) = [.join, .join, .fetch] ∧
      p.traversalPath? 1 = some "author.company" ∧ p.traversalPath? 3 = none := by
  have hcompile : unloadedAuthors.compile .documents = .ok (unloadedAuthors.plan .documents) :=
    compile_eq_ok_iff.mpr ⟨by decide, rfl⟩
  obtain ⟨-, -, hlength, -, -, hclimbs, hnone, -⟩ := traversals_faithful hcompile
  refine ⟨_, hcompile, hlength, rfl, (hclimbs 1).2, (hnone 3).mpr ?_⟩
  rw [hlength]
  decide

end Condition

end Criteria
