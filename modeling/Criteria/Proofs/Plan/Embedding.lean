import Criteria.Proofs.Join.Growth
import Criteria.Proofs.Plan.Meaning
import Criteria.Proofs.Plan.Modes
import Criteria.Proofs.Plan.Selection

/-!
# Plans within larger plans

When joins are added to a condition, its traversals get new numbers, and further traversals come
in between. The bindings of the larger plan restrict to bindings of the smaller one, under which
the criteria that were there are as true as before.

## Main definitions

- `Binding.restrict`: the rows of a binding at given places
- `Visit.Embeds`: visits that are found among others, at given places
- `Visit.truths`: the truths of the criteria of visits

## Main statements

- `Visit.Embeds.restrict_mem_allBindings`: bindings restrict to bindings
- `Visit.Embeds.exists_restrict_eq`: where the new traversals keep unmatched documents, each
  binding is the restriction of one
- `Visit.Embeds.sublist_truths`, `Visit.Embeds.truths_eq`: truths before and after
- `Join.Grown.exists_embeds`: the visits of joins embed into those of grown ones
-/

namespace Criteria

namespace Binding

/-- The rows of a binding at given places. -/
def restrict (places : List Nat) (binding : Binding) : Binding :=
  places.map fun place => binding[place]?.join

variable {places : List Nat} {binding : Binding}

theorem join_getElem?_restrict (places : List Nat) (binding : Binding) (i : Nat) :
    (restrict places binding)[i]?.join = places[i]?.bind fun place => binding[place]?.join := by
  rw [restrict, List.getElem?_map]
  cases places[i]? <;> rfl

theorem restrict_append (h : ∀ place ∈ places, place < binding.length) (more : Binding) :
    restrict places (binding ++ more) = restrict places binding :=
  List.map_congr_left fun place hplace => by rw [List.getElem?_append_left (h place hplace)]

theorem restrict_concat (h : ∀ place ∈ places, place < binding.length) (row : Option Json) :
    restrict (places ++ [binding.length]) (binding ++ [row]) =
      restrict places binding ++ [row] := by
  have hlast : restrict [binding.length] (binding ++ [row]) = [row] := by simp [restrict]
  calc restrict (places ++ [binding.length]) (binding ++ [row])
      = restrict places (binding ++ [row]) ++ restrict [binding.length] (binding ++ [row]) :=
        List.map_append
    _ = restrict places binding ++ [row] := by rw [restrict_append h, hlast]

end Binding

theorem Json.mem_allBindings_concat_iff {document : Json} {ts : List Traversal} {t : Traversal}
    {binding : Binding} :
    binding ∈ document.allBindings (ts ++ [t]) ↔
      ∃ before ∈ document.allBindings ts, ∃ row ∈ t.choices document before,
        before ++ [row] = binding := by
  simp only [allBindings_concat, List.mem_flatMap, Traversal.extensions_eq, List.mem_map]

theorem Json.length_of_mem_allBindings {document : Json} {ts : List Traversal}
    {binding : Binding} (h : binding ∈ document.allBindings ts) :
    binding.length = ts.length := by
  induction ts using List.reverseRecOn generalizing binding with
  | nil =>
    obtain rfl := List.mem_singleton.mp h
    rfl
  | append_singleton ts t ih =>
    obtain ⟨before, hbefore, row, -, rfl⟩ := mem_allBindings_concat_iff.mp h
    rw [List.length_append, List.length_append, ih hbefore]
    rfl

namespace Traversal

/-- A parent that has got the number that is its new place. -/
def Renumbered (places : List Nat) : Option Nat → Option Nat → Prop
  | none, none => True
  | some parent, some parent' => places[parent]? = some parent'
  | _, _ => False

theorem Renumbered.append {places : List Nat} {parent parent' : Option Nat}
    (h : Renumbered places parent parent') (more : List Nat) :
    Renumbered (places ++ more) parent parent' := by
  cases parent <;> cases parent' <;> simp only [Renumbered] at h ⊢
  rw [List.getElem?_append_left (List.getElem?_eq_some_iff.mp h).1, h]

/-- A traversal finds the same rows at its new place. -/
theorem choices_restrict {places : List Nat} {t t' : Traversal} (hkey : t'.key = t.key)
    (hkind : t'.kind = t.kind) (hparent : Renumbered places t.parent t'.parent) (document : Json)
    (binding : Binding) :
    t.choices document (Binding.restrict places binding) = t'.choices document binding := by
  have hbase : t.base? document (Binding.restrict places binding) = t'.base? document binding := by
    unfold base?
    cases h : t.parent <;> cases h' : t'.parent <;> rw [h, h'] at hparent <;>
      simp only [Renumbered] at hparent ⊢
    rw [Binding.join_getElem?_restrict, hparent, Option.bind_some]
  unfold choices rows
  rw [hbase, hkey, hkind]

theorem exists_mem_choices {t : Traversal} (h : t.kind.keepsUnmatched = true) (document : Json)
    (binding : Binding) : ∃ row, row ∈ t.choices document binding := by
  unfold choices
  split
  · rw [if_pos h]
    exact ⟨none, List.mem_singleton_self none⟩
  · rename_i hrows
    obtain ⟨row, hrow⟩ := List.exists_mem_of_ne_nil _ hrows
    exact ⟨some row, List.mem_map_of_mem hrow⟩

end Traversal

namespace Visit

variable {P : JoinKind → Filter → Prop} {vs vs' : List Visit} {places : List Nat}

/-- Visits that are found among others, with the places at which they are found. The others have
a property, and visits keep their keys, kinds, filters and parents. -/
inductive Embeds (P : JoinKind → Filter → Prop) : List Visit → List Visit → List Nat → Prop
  | nil : Embeds P [] [] []
  | added {vs vs' : List Visit} {places : List Nat} {v : Visit} (before : Embeds P vs vs' places)
    (own : P v.traversal.kind v.filter) : Embeds P vs (vs' ++ [v]) places
  | kept {vs vs' : List Visit} {places : List Nat} {v v' : Visit}
    (before : Embeds P vs vs' places) (id : v.traversal.id = vs.length)
    (id' : v'.traversal.id = vs'.length) (key : v'.traversal.key = v.traversal.key)
    (kind : v'.traversal.kind = v.traversal.kind) (filter : v'.filter = v.filter)
    (parent : Traversal.Renumbered places v.traversal.parent v'.traversal.parent) :
    Embeds P (vs ++ [v]) (vs' ++ [v']) (places ++ [vs'.length])

theorem Embeds.length_places (h : Embeds P vs vs' places) : places.length = vs.length := by
  induction h with
  | nil => rfl
  | added _ _ ih => exact ih
  | kept _ _ _ _ _ _ _ ih => rw [List.length_append, List.length_append, ih]; rfl

theorem Embeds.lt_length (h : Embeds P vs vs' places) : ∀ place ∈ places, place < vs'.length := by
  induction h with
  | nil => simp
  | added _ _ ih =>
    intro place hplace
    have hlt := ih place hplace
    rw [List.length_append]
    omega
  | kept _ _ _ _ _ _ _ ih =>
    intro place hplace
    rw [List.length_append, List.length_singleton]
    rcases List.mem_append.mp hplace with hplace | hplace
    · have hlt := ih place hplace
      omega
    · obtain rfl := List.mem_singleton.mp hplace
      omega

/-- The traversals of visits. -/
def traversals (vs : List Visit) : List Traversal :=
  vs.map fun v => v.traversal

theorem traversals_concat (vs : List Visit) (v : Visit) :
    traversals (vs ++ [v]) = traversals vs ++ [v.traversal] := by
  rw [traversals, List.map_append]
  rfl

theorem length_of_mem_allBindings {document : Json} {binding : Binding}
    (h : binding ∈ document.allBindings (traversals vs)) : binding.length = vs.length := by
  rw [Json.length_of_mem_allBindings h, traversals, List.length_map]

/-- The places of an embedding lie within the bindings of the larger plan. -/
theorem Embeds.lt_length_of_mem {document : Json} {binding : Binding}
    (h : Embeds P vs vs' places) (hbinding : binding ∈ document.allBindings (traversals vs')) :
    ∀ place ∈ places, place < binding.length := by
  rw [length_of_mem_allBindings hbinding]
  exact h.lt_length

/-- The bindings of the larger plan restrict to bindings of the smaller one. -/
theorem Embeds.restrict_mem_allBindings (h : Embeds P vs vs' places) {document : Json}
    {binding : Binding} (hbinding : binding ∈ document.allBindings (traversals vs')) :
    Binding.restrict places binding ∈ document.allBindings (traversals vs) := by
  induction h generalizing binding with
  | nil => exact List.mem_singleton.mpr rfl
  | added before own ih =>
    rw [traversals_concat] at hbinding
    obtain ⟨b, hb, row, -, rfl⟩ := Json.mem_allBindings_concat_iff.mp hbinding
    rw [Binding.restrict_append (before.lt_length_of_mem hb)]
    exact ih hb
  | @kept vs vs' places v v' before id id' key kind filter parent ih =>
    rw [traversals_concat] at hbinding ⊢
    obtain ⟨b, hb, row, hrow, rfl⟩ := Json.mem_allBindings_concat_iff.mp hbinding
    rw [← length_of_mem_allBindings hb, Binding.restrict_concat (before.lt_length_of_mem hb)]
    refine Json.mem_allBindings_concat_iff.mpr ⟨_, ih hb, row, ?_, rfl⟩
    rwa [Traversal.choices_restrict key kind parent]

/-- Each binding of the smaller plan is the restriction of one of the larger plan, if nothing is
dropped for want of rows along the traversals that have been added. -/
theorem Embeds.exists_restrict_eq (h : Embeds P vs vs' places)
    (hP : ∀ kind filter, P kind filter → kind.keepsUnmatched = true) {document : Json}
    {binding : Binding} (hbinding : binding ∈ document.allBindings (traversals vs)) :
    ∃ larger ∈ document.allBindings (traversals vs'),
      Binding.restrict places larger = binding := by
  induction h generalizing binding with
  | nil => exact ⟨[], List.mem_singleton.mpr rfl, (List.mem_singleton.mp hbinding).symm⟩
  | @added vs vs' places v before own ih =>
    obtain ⟨larger, hlarger, rfl⟩ := ih hbinding
    obtain ⟨row, hrow⟩ := v.traversal.exists_mem_choices (hP _ _ own) document larger
    refine ⟨larger ++ [row], ?_, Binding.restrict_append (before.lt_length_of_mem hlarger) [row]⟩
    rw [traversals_concat]
    exact Json.mem_allBindings_concat_iff.mpr ⟨larger, hlarger, row, hrow, rfl⟩
  | @kept vs vs' places v v' before id id' key kind filter parent ih =>
    rw [traversals_concat] at hbinding ⊢
    obtain ⟨b, hb, row, hrow, rfl⟩ := Json.mem_allBindings_concat_iff.mp hbinding
    obtain ⟨larger, hlarger, rfl⟩ := ih hb
    rw [Traversal.choices_restrict key kind parent] at hrow
    refine ⟨larger ++ [row],
      Json.mem_allBindings_concat_iff.mpr ⟨larger, hlarger, row, hrow, rfl⟩, ?_⟩
    rw [← length_of_mem_allBindings hlarger,
      Binding.restrict_concat (before.lt_length_of_mem hlarger)]

/-- The truths of criteria of visits, each on the row of its own traversal. -/
def truths (criteria : Filter → List Criterion) (binding : Binding) (vs : List Visit) :
    List Truth :=
  vs.flatMap fun v => truthsOn binding[v.traversal.id]?.join (criteria v.filter)

theorem truths_concat (criteria : Filter → List Criterion) (binding : Binding)
    (vs : List Visit) (v : Visit) :
    truths criteria binding (vs ++ [v]) = truths criteria binding vs ++
      truthsOn binding[v.traversal.id]?.join (criteria v.filter) := by
  rw [truths, List.flatMap_append, List.flatMap_singleton]
  rfl

/-- A visit that is kept has the same row at its new place. -/
theorem Embeds.row_eq (h : Embeds P vs vs' places) {v v' : Visit} {all : List Nat}
    (hall : places ++ [vs'.length] <+: all) (id : v.traversal.id = vs.length)
    (id' : v'.traversal.id = vs'.length) (binding : Binding) :
    (Binding.restrict all binding)[v.traversal.id]?.join = binding[v'.traversal.id]?.join := by
  obtain ⟨more, rfl⟩ := hall
  rw [Binding.join_getElem?_restrict, id, id', ← h.length_places, List.append_assoc]
  simp

/-- The truths of the smaller plan are among those of the larger one, in the same order. The
induction is on a part of the visits, while the places are those of all. -/
theorem Embeds.sublist_truths (h : Embeds P vs vs' places) {all : List Nat}
    (hall : places <+: all) (criteria : Filter → List Criterion) (binding : Binding) :
    (truths criteria (Binding.restrict all binding) vs).Sublist (truths criteria binding vs') := by
  induction h with
  | nil => exact .refl _
  | added before own ih =>
    rw [truths_concat]
    exact (ih hall).trans (List.sublist_append_left _ _)
  | kept before id id' key kind filter parent ih =>
    rw [truths_concat, truths_concat, filter, before.row_eq hall id id']
    exact (ih ((List.prefix_append _ _).trans hall)).append (.refl _)

/-- The truths are the same if the visits that have been added have no such criteria. -/
theorem Embeds.truths_eq (h : Embeds P vs vs' places) {all : List Nat} (hall : places <+: all)
    {criteria : Filter → List Criterion} (hP : ∀ kind filter, P kind filter → criteria filter = [])
    (binding : Binding) :
    truths criteria (Binding.restrict all binding) vs = truths criteria binding vs' := by
  induction h with
  | nil => rfl
  | added before own ih =>
    rw [truths_concat, hP _ _ own, ih hall]
    exact (List.append_nil _).symm
  | kept before id id' key kind filter parent ih =>
    rw [truths_concat, truths_concat, filter, before.row_eq hall id id',
      ih ((List.prefix_append _ _).trans hall)]

/-- The criteria that are consulted are the same if the visits that have been added have none. -/
theorem Embeds.consulted_eq (h : Embeds P vs vs' places)
    (hP : ∀ kind filter, P kind filter → filter.consulted = []) :
    (vs.flatMap fun v => v.filter.consulted) = vs'.flatMap fun v => v.filter.consulted := by
  induction h with
  | nil => rfl
  | added before own ih =>
    rw [List.flatMap_append, List.flatMap_singleton, hP _ _ own, List.append_nil, ih]
  | kept before id id' key kind filter parent ih =>
    rw [List.flatMap_append, List.flatMap_append, List.flatMap_singleton, List.flatMap_singleton,
      filter, ih]

end Visit

namespace Join

open Visit (Embeds)

variable {P : JoinKind → Filter → Prop} {vs vs' : List Visit} {places : List Nat}

/-- The visits of joins that are new are visits that have been added. -/
private theorem embeds_visitsOf {joins : List Join} (parent : Option Nat)
    (h : ∀ j ∈ joins, ∀ vs', Embeds P vs vs' places →
      Embeds P vs (vs' ++ visits .join parent vs'.length j) places)
    (hbefore : Embeds P vs vs' places) :
    Embeds P vs (vs' ++ visitsOf .join parent vs'.length joins) places := by
  induction joins generalizing vs' with
  | nil =>
    rw [visitsOf, List.append_nil]
    exact hbefore
  | cons j rest ih =>
    have hrest := ih (fun k hk => h k (List.mem_cons_of_mem j hk))
      (h j List.mem_cons_self vs' hbefore)
    rwa [List.length_append, List.append_assoc] at hrest

theorem Each.embeds {j : Join} (h : j.Each P) (hbefore : Embeds P vs vs' places)
    (parent : Option Nat) :
    Embeds P vs (vs' ++ visits .join parent vs'.length j) places := by
  induction h generalizing vs' parent with
  | @intro j own children ih =>
    obtain ⟨key, kind, filter, below, fetch⟩ := j
    have hown : Embeds P vs
        (vs' ++ [⟨⟨vs'.length, parent, key, kind, .join⟩, filter⟩]) places := .added hbefore own
    have hbelow := embeds_visitsOf (some vs'.length)
      (fun child hchild us hus => ih child hchild hus (some vs'.length)) hown
    rwa [List.length_append, List.append_assoc] at hbelow

/-- The visits of siblings embed into those of grown ones, after visits that embed. -/
theorem Grown.exists_embeds {S T : List Join} (h : Grown P S T) {parent parent' : Option Nat}
    (hbefore : Embeds P vs vs' places) (hparent : Traversal.Renumbered places parent parent') :
    ∃ more, Embeds P (vs ++ visitsOf .join parent vs.length S)
      (vs' ++ visitsOf .join parent' vs'.length T) (places ++ more) := by
  induction h generalizing vs vs' places parent parent' with
  | nil => exact ⟨[], by simpa [visitsOf] using hbefore⟩
  | @added j S T each _ ih =>
    obtain ⟨more, hmore⟩ := ih (each.embeds hbefore parent') hparent
    rw [List.length_append, List.append_assoc] at hmore
    exact ⟨more, hmore⟩
  | @kept j k S T hidentity hfilter _ _ below after =>
    obtain ⟨key, kind, filter, children, fetch⟩ := j
    obtain ⟨key', kind', filter', children', fetch'⟩ := k
    obtain ⟨hkey, hkind⟩ := JoinIdentity.mk.inj hidentity
    -- first the join itself, then the joins below it, then its siblings
    have hown : Embeds P (vs ++ [⟨⟨vs.length, parent, key, kind, .join⟩, filter⟩])
        (vs' ++ [⟨⟨vs'.length, parent', key', kind', .join⟩, filter'⟩])
        (places ++ [vs'.length]) := .kept hbefore rfl rfl hkey hkind hfilter hparent
    have hplace : Traversal.Renumbered (places ++ [vs'.length]) (some vs.length)
        (some vs'.length) := by
      rw [← hbefore.length_places]
      exact List.getElem?_concat_length
    obtain ⟨inner, hinner⟩ := below hown hplace
    obtain ⟨more, hmore⟩ := after hinner ((hparent.append _).append inner)
    refine ⟨[vs'.length] ++ inner ++ more, ?_⟩
    simpa [visitsOf, visits, List.append_assoc, Nat.add_assoc, Nat.add_comm] using hmore

end Join

end Criteria
