import Criteria.Plan.Basic
import Criteria.Proofs.Join.Preorder

/-!
# Visits of joins

The traversals of a plan list the joins of its condition in preorder. Whether rows are loaded
changes nothing but the modes of the traversals.

## Main definitions

- `Visit.unloaded`: a visit whose rows are not loaded
- `Traversal.paths`: the identities from the document to each traversal of a plan

## Main statements

- `Condition.map_unloaded_visits`: the visits of a condition, but for their modes
- `Join.filter_visitsOf`, `Join.id_visitsOf`: the filter and the number of each visit
- `Join.paths_visitsOf`: each traversal has the path of its own join
-/

namespace Criteria

def Traversal.unloaded (t : Traversal) : Traversal :=
  { t with mode := .join }

def Visit.unloaded (v : Visit) : Visit :=
  { v with traversal := v.traversal.unloaded }

namespace Traversal

def identity (t : Traversal) : JoinIdentity :=
  ⟨t.key, t.kind⟩

/-- The paths of traversals that come after others, whose paths are known. -/
def pathsAfter (known : List (List JoinIdentity)) : List Traversal → List (List JoinIdentity)
  | [] => known
  | t :: rest =>
    let above := (t.parent.bind (known[·]?)).getD []
    pathsAfter (known ++ [above ++ [t.identity]]) rest

/-- The identities from the document to each traversal, along parents. -/
def paths (ts : List Traversal) : List (List JoinIdentity) :=
  pathsAfter [] ts

theorem pathsAfter_append (known : List (List JoinIdentity)) (ts us : List Traversal) :
    pathsAfter known (ts ++ us) = pathsAfter (pathsAfter known ts) us := by
  induction ts generalizing known with
  | nil => rfl
  | cons t rest ih => exact ih _

theorem pathsAfter_map_unloaded (known : List (List JoinIdentity)) (ts : List Traversal) :
    pathsAfter known (ts.map unloaded) = pathsAfter known ts := by
  induction ts generalizing known with
  | nil => rfl
  | cons t rest ih => exact ih _

end Traversal

namespace Join

mutual

theorem map_unloaded_visits (mode : TraversalMode) (parent : Option Nat) (next : Nat)
    (j : Join) :
    (visits mode parent next j).map Visit.unloaded = visits .join parent next j := by
  obtain ⟨key, kind, filter, children, fetch⟩ := j
  rw [visits, visits, List.map_cons, map_unloaded_visitsOf mode (some next) (next + 1) children]
  rfl

theorem map_unloaded_visitsOf (mode : TraversalMode) (parent : Option Nat) (next : Nat)
    (joins : List Join) :
    (visitsOf mode parent next joins).map Visit.unloaded = visitsOf .join parent next joins := by
  cases joins with
  | nil => rfl
  | cons j rest =>
    have hj := map_unloaded_visits mode parent next j
    have hlength : (visits mode parent next j).length = (visits .join parent next j).length := by
      rw [← hj, List.length_map]
    simp only [visitsOf, List.map_append, hj, hlength]
    rw [map_unloaded_visitsOf mode parent _ rest]

end

theorem map_unloaded_topVisits (mayFetch : Bool) (next : Nat) (joins : List Join) :
    (topVisits mayFetch next joins).map Visit.unloaded = visitsOf .join none next joins := by
  induction joins generalizing next with
  | nil => rfl
  | cons j rest ih =>
    have hj := map_unloaded_visits (j.mode mayFetch) none next j
    have hlength : (visits (j.mode mayFetch) none next j).length =
        (visits .join none next j).length := by
      rw [← hj, List.length_map]
    simp only [topVisits, visitsOf, List.map_append, hj, hlength, ih]

mutual

theorem filter_visits (parent : Option Nat) (next : Nat) (above : List JoinIdentity)
    (j : Join) :
    (visits .join parent next j).map (·.filter) = (located above j).map (·.join.filter) := by
  obtain ⟨key, kind, filter, children, fetch⟩ := j
  simp only [visits, located, List.map_cons]
  rw [filter_visitsOf (some next) (next + 1) (above ++ [⟨key, kind⟩]) children]

theorem filter_visitsOf (parent : Option Nat) (next : Nat) (above : List JoinIdentity)
    (joins : List Join) :
    (visitsOf .join parent next joins).map (·.filter) =
      (locatedAll above joins).map (·.join.filter) := by
  cases joins with
  | nil => rfl
  | cons j rest =>
    simp only [visitsOf, locatedAll, List.map_append]
    rw [filter_visits parent next above j, filter_visitsOf parent _ above rest]

end

mutual

theorem id_visits (parent : Option Nat) (next : Nat) (j : Join) :
    (visits .join parent next j).map (·.traversal.id) =
      List.range' next (visits .join parent next j).length := by
  obtain ⟨key, kind, filter, children, fetch⟩ := j
  simp only [visits, List.map_cons, List.length_cons, List.range'_succ]
  rw [id_visitsOf (some next) (next + 1) children]

theorem id_visitsOf (parent : Option Nat) (next : Nat) (joins : List Join) :
    (visitsOf .join parent next joins).map (·.traversal.id) =
      List.range' next (visitsOf .join parent next joins).length := by
  cases joins with
  | nil => rfl
  | cons j rest =>
    simp only [visitsOf, List.map_append, List.length_append]
    rw [id_visits parent next j, id_visitsOf parent _ rest, ← List.range'_append_1]

end

/-- What the known paths say about a parent: its path is `above`, which is empty for the
document. -/
def Leads (known : List (List JoinIdentity)) (above : List JoinIdentity) :
    Option Nat → Prop
  | none => above = []
  | some id => known[id]? = some above

theorem Leads.getD_eq {known : List (List JoinIdentity)} {above : List JoinIdentity}
    {parent : Option Nat} (h : Leads known above parent) :
    (parent.bind (known[·]?)).getD [] = above := by
  cases parent with
  | none => exact h.symm
  | some id =>
    have hid : known[id]? = some above := h
    rw [Option.bind_some, hid, Option.getD_some]

/-- Further paths do not change the path of a parent. -/
theorem Leads.append {known : List (List JoinIdentity)} {above : List JoinIdentity}
    {parent : Option Nat} (h : Leads known above parent) (more : List (List JoinIdentity)) :
    Leads (known ++ more) above parent := by
  cases parent with
  | none => exact h
  | some id =>
    have hid : known[id]? = some above := h
    have hlt : id < known.length := (List.getElem?_eq_some_iff.mp hid).1
    show (known ++ more)[id]? = some above
    rw [List.getElem?_append_left hlt, hid]

mutual

theorem paths_visits (known : List (List JoinIdentity)) (above : List JoinIdentity)
    (parent : Option Nat) (j : Join) (h : Leads known above parent) :
    Traversal.pathsAfter known
        ((visits .join parent known.length j).map (·.traversal)) =
      known ++ (located above j).map (·.path) := by
  obtain ⟨key, kind, filter, children, fetch⟩ := j
  have hpath : Leads (known ++ [above ++ [⟨key, kind⟩]]) (above ++ [⟨key, kind⟩])
      (some known.length) := List.getElem?_concat_length
  have hchildren := paths_visitsOf _ _ _ children hpath
  rw [List.length_append, List.length_singleton] at hchildren
  simp only [visits, located, List.map_cons, Traversal.pathsAfter, Traversal.identity, h.getD_eq]
  rw [hchildren, List.append_assoc, List.singleton_append]

theorem paths_visitsOf (known : List (List JoinIdentity)) (above : List JoinIdentity)
    (parent : Option Nat) (joins : List Join) (h : Leads known above parent) :
    Traversal.pathsAfter known
        ((visitsOf .join parent known.length joins).map (·.traversal)) =
      known ++ (locatedAll above joins).map (·.path) := by
  cases joins with
  | nil => simp [visitsOf, locatedAll, Traversal.pathsAfter]
  | cons j rest =>
    have hlength : (visits .join parent known.length j).length = (located above j).length := by
      simpa using congrArg List.length (filter_visits parent known.length above j)
    have hrest := paths_visitsOf (known ++ (located above j).map (·.path)) above parent rest
      (h.append _)
    rw [List.length_append, List.length_map, ← hlength] at hrest
    simp only [visitsOf, locatedAll, List.map_append, Traversal.pathsAfter_append]
    rw [paths_visits known above parent j h, hrest, List.append_assoc]

end

end Join

namespace Condition

/-- Only the modes of the visits depend on what a query is for. -/
theorem map_unloaded_visits (c : Condition) (purpose : Purpose) :
    (c.visits purpose).map Visit.unloaded = Join.visitsOf .join none 0 c.joins :=
  Join.map_unloaded_topVisits _ 0 c.joins

/-- What does not look at modes can be read off the visits without loading. -/
theorem map_visits {β : Type} {f : Visit → β} (hf : ∀ v, f v.unloaded = f v) (c : Condition)
    (purpose : Purpose) :
    (c.visits purpose).map f = (Join.visitsOf .join none 0 c.joins).map f := by
  rw [← c.map_unloaded_visits purpose, List.map_map]
  exact List.map_congr_left fun v _ => (hf v).symm

theorem filter_visits (c : Condition) (purpose : Purpose) :
    (c.visits purpose).map (·.filter) = (Join.locatedAll [] c.joins).map (·.join.filter) := by
  rw [map_visits (fun _ => rfl), Join.filter_visitsOf none 0 []]

/-- A traversal has its place in the list for its number. -/
theorem id_visits (c : Condition) (purpose : Purpose) :
    (c.visits purpose).map (·.traversal.id) = List.range (c.visits purpose).length := by
  have hlength : (c.visits purpose).length = (Join.visitsOf .join none 0 c.joins).length := by
    rw [← c.map_unloaded_visits purpose, List.length_map]
  rw [map_visits (fun _ => rfl), Join.id_visitsOf, hlength, List.range_eq_range']

/-- The traversals lead to the joins of the condition, each to its own. -/
theorem paths_visits (c : Condition) (purpose : Purpose) :
    Traversal.paths ((c.visits purpose).map (·.traversal)) =
      (Join.locatedAll [] c.joins).map (·.path) := by
  have hunloaded : ((c.visits purpose).map (·.traversal)).map Traversal.unloaded =
      (Join.visitsOf .join none 0 c.joins).map (·.traversal) := by
    rw [← c.map_unloaded_visits purpose, List.map_map, List.map_map]
    rfl
  rw [Traversal.paths, ← Traversal.pathsAfter_map_unloaded, hunloaded]
  exact Join.paths_visitsOf [] [] none c.joins rfl

end Condition

end Criteria
