import Criteria.Proofs.Condition.Joins

/-!
# Conditions that can be built

Joins are made along paths and added to each other, and a join that is among siblings may be
changed in place as long as its identity stays. This leads to just those joins whose keys
stand for one join each and whose siblings are in order.

## Main definitions

- `Join.Built`, `Condition.Built`: what the operations make

## Main statements

- `Join.built_iff`, `Condition.built_iff_tidy`: what can be built
-/

namespace Criteria

namespace Join

theorem plain_singleton {j : Join} (hkey : PlainKey j.key) (h : Plain j.children) : Plain [j] :=
  .cons hkey h .nil

theorem Plain.of_mem {S : List Join} (h : Plain S) {j : Join} (hj : j ∈ S) :
    PlainKey j.key ∧ Plain j.children := by
  induction h with
  | nil => cases hj
  | cons key children _ _ ih =>
    rcases List.mem_cons.mp hj with rfl | hj
    · exact ⟨key, children⟩
    · exact ih hj

theorem plain_chain (kind : JoinKind) (fetch : Bool) {first : String} {rest : List String}
    (h : ∀ name ∈ first :: rest, PlainKey (Text.trim name)) :
    Plain [chain kind fetch first rest] := by
  induction rest generalizing first with
  | nil => exact plain_singleton (h first List.mem_cons_self) .nil
  | cons second rest ih =>
    refine plain_singleton (h first List.mem_cons_self) ?_
    exact ih fun name hname => h name (List.mem_cons_of_mem first hname)

section Place

variable {j : Join} {merge : Join → Join} {S : List Join}

theorem plain_place (hmerge : ∀ k, (merge k).key = k.key)
    (hchildren : ∀ k, Plain k.children → Plain (merge k).children) (hkey : PlainKey j.key)
    (hj : Plain j.children) (h : Plain S) : Plain (place j merge S) := by
  induction h with
  | nil => exact plain_singleton hkey hj
  | @cons there rest first children others _ ih =>
    unfold place
    split
    · exact .cons hkey hj (.cons first children others)
    · exact .cons (by rwa [hmerge]) (hchildren there children) others
    · exact .cons first children ih

/-- Insertion makes no new keys. -/
theorem plain_insertAll {js : List Join} (hjs : Plain js) {S : List Join} (hS : Plain S) :
    Plain (insertAll js S) := by
  induction hjs generalizing S with
  | nil => rwa [insertAll]
  | @cons j rest key children _ below after =>
    rw [insertAll, insertInto_eq]
    refine after ?_
    exact plain_place (fun _ => rfl) (fun _ hthere => below hthere) key children hS

end Place

section Change

variable {child : Join} {S : List Join}

theorem plain_update (hkey : PlainKey child.key) (hchild : Plain child.children) (h : Plain S) :
    Plain (update child.identity (fun _ => child) S) := by
  induction h with
  | nil => exact .nil
  | @cons there rest first children others _ ih =>
    rw [update]
    split
    · exact .cons hkey hchild others
    · exact .cons first children ih

theorem identity_of_mem_update {k : Join}
    (h : k ∈ update child.identity (fun _ => child) S) :
    ∃ there ∈ S, k.identity = there.identity := by
  induction S with
  | nil => cases h
  | cons there rest ih =>
    rw [update] at h
    split at h
    · rename_i hidentity
      rcases List.mem_cons.mp h with rfl | h
      · exact ⟨there, List.mem_cons_self, hidentity.symm⟩
      · exact ⟨k, List.mem_cons_of_mem there h, rfl⟩
    · rcases List.mem_cons.mp h with rfl | h
      · exact ⟨k, List.mem_cons_self, rfl⟩
      · obtain ⟨m, hm, heq⟩ := ih h
        exact ⟨m, List.mem_cons_of_mem there hm, heq⟩

/-- A join that keeps its identity keeps its place among its siblings. -/
theorem ordered_update (hchild : Ordered child.children) (h : Ordered S) :
    Ordered (update child.identity (fun _ => child) S) := by
  induction h with
  | nil => exact .nil
  | @cons there rest first children others _ ih =>
    rw [update]
    split
    · rename_i hidentity
      exact .cons (fun k hk => hidentity ▸ first k hk) hchild others
    · refine .cons (fun k hk => ?_) children ih
      obtain ⟨m, hm, heq⟩ := identity_of_mem_update hk
      rw [heq]
      exact first m hm

end Change

/-- The joins that the operations on joins make. A join among siblings is changed in place: it
is any join that has been made and that has its identity. -/
inductive Built : Join → Prop
  | ofPath {path : String} {kind : JoinKind} {fetch : Bool} {j : Join}
      (h : ofPath path kind fetch = .ok j) : Built j
  | setFetch {j : Join} (h : Built j) (fetch : Bool) : Built { j with fetch }
  | setFilter {j : Join} (h : Built j) (filter : Filter) : Built { j with filter }
  | addChild {j child : Join} (h : Built j) (hchild : Built child) : Built (j.addChild child)
  | changeChild {j child : Join} (h : Built j) (hchild : Built child) :
      Built { j with children := update child.identity (fun _ => child) j.children }

theorem Built.plain {j : Join} (h : j.Built) : PlainKey j.key ∧ Plain j.children := by
  induction h with
  | @ofPath path kind fetch j h =>
    obtain ⟨first, rest, hsegments, rfl⟩ := exists_chain_of_ofPath h
    exact (plain_chain kind fetch fun _ hname => plainKey_trim hsegments hname).of_mem
      (List.mem_singleton_self _)
  | setFetch _ _ ih => exact ih
  | setFilter _ _ ih => exact ih
  | addChild _ _ ih ihchild =>
    exact ⟨ih.1, plain_insertAll (plain_singleton ihchild.1 ihchild.2) ih.2⟩
  | changeChild _ _ ih ihchild => exact ⟨ih.1, plain_update ihchild.1 ihchild.2 ih.2⟩

theorem Built.ordered {j : Join} (h : j.Built) : Ordered j.children := by
  induction h with
  | @ofPath path kind fetch j h =>
    obtain ⟨first, rest, -, rfl⟩ := exists_chain_of_ofPath h
    exact ordered_chain kind fetch first rest
  | setFetch _ _ ih => exact ih
  | setFilter _ _ ih => exact ih
  | addChild _ _ ih ihchild => exact ordered_insert ih ihchild
  | changeChild _ _ ih ihchild => exact ordered_update ihchild ih

/-- Children that can be built are added one after the other. -/
theorem built_insertAll {j : Join} {children : List Join} (hchildren : ∀ c ∈ children, c.Built)
    (h : j.Built) : Built { j with children := insertAll children j.children } := by
  induction children generalizing j with
  | nil =>
    cases j
    exact h
  | cons c rest ih =>
    rw [List.forall_mem_cons] at hchildren
    exact ih hchildren.2 (h.addChild hchildren.1)

/-- A join can be built if its keys are plain and its children are in order at every depth. The
induction is on the siblings with their children. -/
theorem built_of_plain {S : List Join} (hkeys : Plain S) (h : Ordered S) : ∀ j ∈ S, j.Built := by
  induction hkeys with
  | nil => exact fun j hj => absurd hj List.not_mem_nil
  | @cons j rest hkey _ _ below after =>
    cases h with
    | cons first children others =>
      rw [List.forall_mem_cons]
      refine ⟨?_, after others⟩
      have hpath := Built.ofPath (ofPath_of_plainKey hkey j.kind j.fetch)
      have hbuilt := built_insertAll (below children) (hpath.setFilter j.filter)
      have hchildren : insertAll j.children [] = j.children := ofList_of_ordered children
      simp only [hchildren] at hbuilt
      cases j
      exact hbuilt

/-- The joins that can be built are those with plain keys and with children in order. -/
theorem built_iff {j : Join} : j.Built ↔ Plain [j] ∧ Ordered [j] := by
  constructor
  · intro h
    exact ⟨plain_singleton h.plain.1 h.plain.2, ordered_singleton h.ordered⟩
  · rintro ⟨hkeys, h⟩
    exact built_of_plain hkeys h j (List.mem_singleton_self j)

end Join

namespace Condition

/-- The conditions that the operations on conditions make. A join of a condition is changed in
place: it is any join that has been made and that has its identity. -/
inductive Built : Condition → Prop
  | empty : Built {}
  | setFilter {c : Condition} (h : Built c) (filter : Filter) : Built { c with filter }
  | setDistinct {c : Condition} (h : Built c) (distinct : Bool) : Built { c with distinct }
  | setSuppressFetch {c : Condition} (h : Built c) (suppressFetch : Bool) :
      Built { c with suppressFetch }
  | addJoin {c : Condition} {j : Join} (h : Built c) (hj : j.Built) : Built (c.addJoin j)
  | changeJoin {c : Condition} {j : Join} (h : Built c) (hj : j.Built) :
      Built { c with joins := Join.update j.identity (fun _ => j) c.joins }

theorem Built.tidy {c : Condition} (h : c.Built) : c.Tidy := by
  induction h with
  | empty => exact ⟨.nil, .nil⟩
  | setFilter _ _ ih => exact ⟨ih.plain, ih.ordered⟩
  | setDistinct _ _ ih => exact ⟨ih.plain, ih.ordered⟩
  | setSuppressFetch _ _ ih => exact ⟨ih.plain, ih.ordered⟩
  | addJoin _ hj ih =>
    refine ⟨?_, Join.ordered_insert ih.ordered hj.ordered⟩
    exact Join.plain_insertAll (Join.plain_singleton hj.plain.1 hj.plain.2) ih.plain
  | changeJoin _ hj ih =>
    exact ⟨Join.plain_update hj.plain.1 hj.plain.2 ih.plain,
      Join.ordered_update hj.ordered ih.ordered⟩

theorem built_insertAll {c : Condition} {joins : List Join} (hjoins : ∀ j ∈ joins, j.Built)
    (h : c.Built) : Built { c with joins := Join.insertAll joins c.joins } := by
  induction joins generalizing c with
  | nil => exact h
  | cons j rest ih =>
    rw [List.forall_mem_cons] at hjoins
    exact ih hjoins.2 (h.addJoin hjoins.1)

/-- The conditions that can be built are those whose joins have plain keys and are in order. -/
theorem built_iff_tidy {c : Condition} : c.Built ↔ c.Tidy := by
  refine ⟨Built.tidy, fun h => ?_⟩
  have hbuilt := built_insertAll (Join.built_of_plain h.plain h.ordered) Built.empty
  have hjoins : Join.insertAll c.joins [] = c.joins := Join.ofList_of_ordered h.ordered
  simp only [hjoins] at hbuilt
  exact ((hbuilt.setFilter c.filter).setDistinct c.distinct).setSuppressFetch c.suppressFetch

end Condition

end Criteria
