import Criteria.Condition
import Criteria.Proofs.Join.Reading

/-!
# Growth of joins

Insertion only adds joins. A join that is there keeps its identity and its filter, and further
joins come in before it, after it or below it. So whatever holds of the joins that are inserted
holds of all that is new, wherever it ends up.

## Main definitions

- `Join.Each`: a property of the kind and of the filter of every join of a tree
- `Join.Grown`: siblings among which and below which further joins have come in

## Main statements

- `Join.Grown.trans`: growth in two steps
- `Join.grown_insertAll`: siblings grow by what is inserted
- `Condition.exists_foldl_addJoin_of_addPaths`: paths that are added are chains of joins
-/

namespace Criteria

namespace Join

variable {P : JoinKind → Filter → Prop}

/-- The kind and the filter of every join of a tree have a property. -/
inductive Each (P : JoinKind → Filter → Prop) : Join → Prop
  | intro {j : Join} (own : P j.kind j.filter)
    (children : ∀ child ∈ j.children, Each P child) : Each P j

/-- Siblings among which and below which joins with a property have come in, while those that
were there have kept their identities, their filters and their order. -/
inductive Grown (P : JoinKind → Filter → Prop) : List Join → List Join → Prop
  | nil : Grown P [] []
  | added {j : Join} {S T : List Join} (each : j.Each P) (others : Grown P S T) :
    Grown P S (j :: T)
  | kept {j k : Join} {S T : List Join} (identity : k.identity = j.identity)
    (filter : k.filter = j.filter) (children : Grown P j.children k.children)
    (others : Grown P S T) : Grown P (j :: S) (k :: T)

theorem Each.own {j : Join} (h : j.Each P) : P j.kind j.filter := by
  cases h with
  | intro own _ => exact own

theorem Each.children {j : Join} (h : j.Each P) : ∀ child ∈ j.children, child.Each P := by
  cases h with
  | intro _ children => exact children

/-- Siblings have grown by nothing. -/
theorem Grown.refl : ∀ S : List Join, Grown P S S
  | [] => .nil
  | ⟨_, _, _, children, _⟩ :: rest => .kept rfl rfl (Grown.refl children) (Grown.refl rest)

/-- A property of all joins is kept by growth. -/
theorem Grown.each {S T : List Join} (h : Grown P S T) (hS : ∀ j ∈ S, j.Each P) :
    ∀ k ∈ T, k.Each P := by
  induction h with
  | nil => exact hS
  | added each _ ih => exact List.forall_mem_cons.mpr ⟨each, ih hS⟩
  | @kept j k S T identity filter _ _ below after =>
    obtain ⟨hj, hrest⟩ := List.forall_mem_cons.mp hS
    obtain ⟨-, hkind⟩ := JoinIdentity.mk.inj identity
    refine List.forall_mem_cons.mpr ⟨.intro ?_ (below hj.children), after hrest⟩
    rw [hkind, filter]
    exact hj.own

/-- Growth in two steps. The induction is on the second: what it keeps was there from the start
or has come in by the first. -/
theorem Grown.trans {S T U : List Join} (hST : Grown P S T) (hTU : Grown P T U) :
    Grown P S U := by
  induction hTU generalizing S with
  | nil => exact hST
  | added each _ ih => exact .added each (ih hST)
  | @kept k m T U identity filter children _ below after =>
    cases hST with
    | added each others =>
      refine .added (.intro ?_ (children.each each.children)) (after others)
      obtain ⟨-, hkind⟩ := JoinIdentity.mk.inj identity
      rw [hkind, filter]
      exact each.own
    | kept identity' filter' children' others =>
      exact .kept (identity.trans identity') (filter.trans filter') (below children')
        (after others)

/-- A join that is put in its place comes in, or goes into the one that is there. -/
theorem grown_place {j : Join} {merge : Join → Join} (hj : j.Each P)
    (hidentity : ∀ k, (merge k).identity = k.identity) (hfilter : ∀ k, (merge k).filter = k.filter)
    (hchildren : ∀ k, Grown P k.children (merge k).children) (S : List Join) :
    Grown P S (place j merge S) := by
  induction S with
  | nil => exact .added hj .nil
  | cons there rest ih =>
    unfold place
    split
    · exact .added hj (.refl _)
    · exact .kept (hidentity there) (hfilter there) (hchildren there) (.refl rest)
    · exact .kept rfl rfl (.refl there.children) ih

private theorem grown_insertAll_of_forall {joins : List Join}
    (h : ∀ j ∈ joins, ∀ S, Grown P S (insertInto j S)) (S : List Join) :
    Grown P S (insertAll joins S) := by
  induction joins generalizing S with
  | nil =>
    rw [insertAll]
    exact .refl S
  | cons j rest ih =>
    rw [insertAll]
    exact (h j List.mem_cons_self S).trans
      (ih (fun k hk => h k (List.mem_cons_of_mem j hk)) (insertInto j S))

theorem grown_insertInto {j : Join} (h : j.Each P) (S : List Join) :
    Grown P S (insertInto j S) := by
  induction h generalizing S with
  | @intro j own children ih =>
    rw [insertInto_eq]
    refine grown_place (.intro own children) ?_ ?_ ?_ S
    · exact fun _ => rfl
    · exact fun _ => rfl
    · exact fun there => grown_insertAll_of_forall ih there.children

/-- Siblings grow by the joins that are inserted. -/
theorem grown_insertAll {joins : List Join} (h : ∀ j ∈ joins, j.Each P) (S : List Join) :
    Grown P S (insertAll joins S) :=
  grown_insertAll_of_forall (fun j hj => grown_insertInto (h j hj)) S

theorem each_chain (kind : JoinKind) (fetch : Bool) (first : String) (rest : List String)
    (h : P kind {}) : (chain kind fetch first rest).Each P := by
  induction rest generalizing first with
  | nil => exact .intro h (by simp [chain])
  | cons second rest ih =>
    refine .intro h fun child hchild => ?_
    obtain rfl := List.mem_singleton.mp hchild
    exact ih second

end Join

namespace Condition

/-- Joins are added to a condition by inserting them, and nothing else changes. -/
theorem foldl_addJoin (c : Condition) (joins : List Join) :
    joins.foldl addJoin c = { c with joins := Join.insertAll joins c.joins } := by
  induction joins generalizing c with
  | nil => rw [List.foldl_nil, Join.insertAll]
  | cons j rest ih =>
    rw [List.foldl_cons, ih, Join.insertAll]
    rfl

/-- Adding paths is adding left joins without a filter, as many as there are before a path that is
refused. -/
theorem exists_foldl_addJoin_of_addPaths {P : JoinKind → Filter → Prop} (h : P .left {})
    (c : Condition) (paths : List String) :
    ∃ joins : List Join, (∀ j ∈ joins, j.Each P) ∧
      (c.addPaths paths).1 = joins.foldl addJoin c := by
  induction paths generalizing c with
  | nil => exact ⟨[], by simp, rfl⟩
  | cons path rest ih =>
    unfold addPaths addPath
    cases hpath : Join.ofPath path .left true with
    | error e => exact ⟨[], by simp, rfl⟩
    | ok j =>
      obtain ⟨first, others, -, rfl⟩ := Join.exists_chain_of_ofPath hpath
      obtain ⟨joins, hjoins, heq⟩ := ih (c.addJoin (Join.chain .left true first others))
      refine ⟨_ :: joins, List.forall_mem_cons.mpr ⟨?_, hjoins⟩, heq⟩
      exact Join.each_chain .left true first others h

end Condition

end Criteria
