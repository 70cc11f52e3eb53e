import Criteria.Proofs.Join.Order

/-!
# Insertion as a union

Siblings are read as a finite map: a path of identities, from a sibling down to one of its
descendants, leads to the filter and the fetch flag of the join at its end. Insertion is the
union of two such maps, where an entry that is there already survives. Siblings in order are
determined by their entries, so equations between insertions follow from equations between
entries.

## Main definitions

- `Join.entryAt`: the filter and the fetch flag at the end of a path
- `Join.IsUnion`: the entries of two lists of siblings taken together

## Main statements

- `Join.isUnion_insertAll`, `Join.isUnion_insert`: insertion is a union of entries
- `Join.Ordered.eq_of_entryAt_eq`: siblings in order are determined by their entries
- `Join.insertAll_self`, `Join.insertAll_assoc`: insertion is idempotent and associative
-/

namespace Criteria.Join

/-- The filter and the fetch flag of the join that a path of identities leads to. -/
def entryAt (siblings : List Join) : List JoinIdentity → Option (Filter × Bool)
  | [] => none
  | [identity] => (get? siblings identity).map fun j => (j.filter, j.fetch)
  | identity :: next :: path =>
    (get? siblings identity).bind fun j => entryAt j.children (next :: path)

/-- The entries of `union` are those of `kept` and, where it has none, those of `added`. -/
def IsUnion (union kept added : List Join) : Prop :=
  ∀ path, entryAt union path = (entryAt kept path).or (entryAt added path)

@[simp] theorem entryAt_nil (path : List JoinIdentity) : entryAt [] path = none := by
  rcases path with - | ⟨identity, - | ⟨next, path⟩⟩ <;> simp [entryAt, get?]

theorem entryAt_congr {S T : List Join} {identity : JoinIdentity}
    (h : get? S identity = get? T identity) (path : List JoinIdentity) :
    entryAt S (identity :: path) = entryAt T (identity :: path) := by
  cases path <;> simp only [entryAt, h]

theorem entryAt_eq_none {S : List Join} {identity : JoinIdentity} (h : get? S identity = none)
    (path : List JoinIdentity) : entryAt S (identity :: path) = none := by
  cases path <;> simp only [entryAt, h, Option.map_none, Option.bind_none]

/-- Below a join, the entries are those of its children. -/
theorem entryAt_below {S : List Join} {identity : JoinIdentity} {j : Join}
    (h : get? S identity = some j) {path : List JoinIdentity} (hpath : path ≠ []) :
    entryAt S (identity :: path) = entryAt j.children path := by
  cases path with
  | nil => exact absurd rfl hpath
  | cons next path => rw [entryAt, h, Option.bind_some]

theorem entryAt_singleton_of_ne {j : Join} {identity : JoinIdentity} (h : j.identity ≠ identity)
    (path : List JoinIdentity) : entryAt [j] (identity :: path) = none :=
  entryAt_eq_none (by rw [get?_cons_of_ne h]; rfl) path

/-- The entries of siblings are those of the first and those of the others, since no other
has the identity of the first. -/
theorem Ordered.entryAt_cons {j : Join} {rest : List Join} (h : Ordered (j :: rest)) :
    IsUnion (j :: rest) [j] rest := by
  intro path
  cases path with
  | nil => rfl
  | cons identity path =>
    cases h with
    | cons first children others =>
      by_cases heq : j.identity = identity
      · subst heq
        rw [entryAt_eq_none (get?_eq_none_of_before first), Option.or_none]
        exact entryAt_congr (by rw [get?_cons_self, get?_cons_self]) path
      · rw [entryAt_singleton_of_ne heq, Option.none_or]
        exact entryAt_congr (get?_cons_of_ne heq rest) path

/-- The join that is there takes over children and keeps everything else. -/
theorem insertInto_eq (j : Join) (S : List Join) :
    insertInto j S =
      place j (fun there => { there with children := insertAll j.children there.children }) S := by
  cases j
  rw [insertInto]

theorem ordered_insertAll {js : List Join} (hjs : Ordered js) {S : List Join} (hS : Ordered S) :
    Ordered (insertAll js S) := by
  induction hjs generalizing S with
  | nil => rwa [insertAll]
  | @cons j rest _ children _ below after =>
    rw [insertAll, insertInto_eq]
    refine after ?_
    exact ordered_place (fun _ => rfl) (fun _ hthere => below hthere) children hS

theorem ordered_insert {S : List Join} {s : Join} (hS : Ordered S) (hs : Ordered s.children) :
    Ordered (insert S s) :=
  ordered_insertAll (ordered_singleton hs) hS

/-- After an insertion, the identity of the new join leads to the survivor and every other
identity leads where it did. -/
theorem get?_insert {S : List Join} (hS : Ordered S) (s : Join) (identity : JoinIdentity) :
    get? (insert S s) identity =
      if identity = s.identity then some (survivor S s) else get? S identity := by
  have hmerge : ∀ there : Join,
      ({ there with children := insertAll s.children there.children } : Join).identity =
        there.identity := fun _ => rfl
  rw [insert, insertInto_eq, get?_place hmerge hS]
  by_cases heq : identity = s.identity
  · subst heq
    rw [if_pos rfl, if_pos rfl, survivor]
    cases get? S s.identity <;> rfl
  · rw [if_neg heq, if_neg heq]

/-- One insertion is a union if the insertion of the children of the new join is. -/
theorem isUnion_insert_of_children {S : List Join} {s : Join} (hS : Ordered S)
    (hchildren : ∀ there ∈ S,
      IsUnion (insertAll s.children there.children) there.children s.children) :
    IsUnion (insert S s) S [s] := by
  intro path
  cases path with
  | nil => rfl
  | cons identity path =>
    by_cases heq : identity = s.identity
    · subst heq
      have hget : get? (insert S s) s.identity = some (survivor S s) := by
        rw [get?_insert hS, if_pos rfl]
      cases hthere : get? S s.identity with
      | none =>
        -- nothing is there to merge with
        have hsurvivor : survivor S s = s := by rw [survivor, hthere]
        rw [entryAt_eq_none hthere, Option.none_or]
        exact entryAt_congr (by rw [hget, hsurvivor, get?_cons_self]) path
      | some there =>
        have hsurvivor : survivor S s =
            { there with children := insertAll s.children there.children } := by
          rw [survivor, hthere]
        by_cases hpath : path = []
        · -- the entry that is there survives
          subst hpath
          simp only [entryAt, hget, hsurvivor, hthere, Option.map_some, Option.some_or]
        · -- below, the children are united
          rw [entryAt_below hget hpath, entryAt_below hthere hpath,
            entryAt_below (get?_cons_self s []) hpath, hsurvivor]
          exact hchildren there (mem_of_get?_eq_some hthere) path
    · rw [entryAt_singleton_of_ne (Ne.symm heq), Option.or_none]
      exact entryAt_congr (by rw [get?_insert hS, if_neg heq]) path

/-- Inserting siblings is a union: the induction is on the order of the siblings that are
inserted, which gives the law for the children of the first and for the others. -/
theorem isUnion_insertAll {js : List Join} (hjs : Ordered js) {S : List Join} (hS : Ordered S) :
    IsUnion (insertAll js S) S js := by
  induction hjs generalizing S with
  | nil =>
    intro path
    rw [insertAll, entryAt_nil, Option.or_none]
  | @cons j rest first children others below after =>
    intro path
    have hinsert : IsUnion (insert S j) S [j] :=
      isUnion_insert_of_children hS fun there hthere => below (hS.children_of_mem hthere)
    have hordered : Ordered (insert S j) := ordered_insert hS children
    have hcons : IsUnion (j :: rest) [j] rest := (Ordered.cons first children others).entryAt_cons
    calc entryAt (insertAll (j :: rest) S) path
        = entryAt (insertAll rest (insert S j)) path := by rw [insertAll, insert]
      _ = (entryAt (insert S j) path).or (entryAt rest path) := after hordered path
      _ = ((entryAt S path).or (entryAt [j] path)).or (entryAt rest path) := by rw [hinsert]
      _ = (entryAt S path).or (entryAt (j :: rest) path) := by rw [Option.or_assoc, ← hcons path]

theorem isUnion_insert {S : List Join} {s : Join} (hS : Ordered S) (hs : Ordered s.children) :
    IsUnion (insert S s) S [s] :=
  isUnion_insertAll (ordered_singleton hs) hS

section Lists

variable {joins : List Join}

/-- Joins that are inserted one after the other need not be in order themselves. -/
theorem ordered_insertAll_of_forall (hjoins : ∀ j ∈ joins, Ordered j.children) {S : List Join}
    (hS : Ordered S) : Ordered (insertAll joins S) := by
  induction joins generalizing S with
  | nil => rwa [insertAll]
  | cons j rest ih =>
    rw [insertAll]
    refine ih (fun k hk => hjoins k (List.mem_cons_of_mem j hk)) ?_
    exact ordered_insert hS (hjoins j List.mem_cons_self)

/-- The first of the joins with an entry gives it. -/
theorem entryAt_insertAll (hjoins : ∀ j ∈ joins, Ordered j.children) {S : List Join}
    (hS : Ordered S) (path : List JoinIdentity) :
    entryAt (insertAll joins S) path =
      (entryAt S path).or (joins.findSome? fun j => entryAt [j] path) := by
  induction joins generalizing S with
  | nil => rw [insertAll, List.findSome?_nil, Option.or_none]
  | cons j rest ih =>
    have hj : Ordered j.children := hjoins j List.mem_cons_self
    have hrest : ∀ k ∈ rest, Ordered k.children :=
      fun k hk => hjoins k (List.mem_cons_of_mem j hk)
    have hafter := ih hrest (ordered_insert hS hj)
    rw [isUnion_insert hS hj, Option.or_assoc] at hafter
    rw [insertAll, List.findSome?_cons]
    refine hafter.trans ?_
    cases entryAt [j] path <;> rfl

/-- The same paths lead to a join in whichever order the joins are inserted. -/
theorem isSome_entryAt_insertAll_perm {joins' : List Join}
    (hjoins : ∀ j ∈ joins, Ordered j.children) (hperm : joins.Perm joins') {S : List Join}
    (hS : Ordered S) (path : List JoinIdentity) :
    (entryAt (insertAll joins S) path).isSome = (entryAt (insertAll joins' S) path).isSome := by
  have hjoins' : ∀ j ∈ joins', Ordered j.children := fun j hj => hjoins j (hperm.mem_iff.mpr hj)
  rw [entryAt_insertAll hjoins hS, entryAt_insertAll hjoins' hS, Option.isSome_or,
    Option.isSome_or, List.isSome_findSome?, List.isSome_findSome?]
  exact congrArg _ hperm.any_eq

end Lists

/-- A join that has an entry on one side cannot stand before all joins of the other side. -/
private theorem not_before_of_entryAt_eq {j k : Join} {rest rest' : List Join}
    (hj : Ordered (j :: rest)) (h : ∀ path, entryAt (j :: rest) path = entryAt (k :: rest') path) :
    ¬ k.identity.Before j.identity := by
  intro hbefore
  have hnone : entryAt (j :: rest) [k.identity] = none :=
    entryAt_eq_none (hj.get?_before_head hbefore) []
  have hsome : entryAt (k :: rest') [k.identity] = some (k.filter, k.fetch) := by
    simp only [entryAt, get?_cons_self, Option.map_some]
  rw [← h, hnone] at hsome
  cases hsome

private theorem identity_eq_of_entryAt_eq {j k : Join} {rest rest' : List Join}
    (hj : Ordered (j :: rest)) (hk : Ordered (k :: rest'))
    (h : ∀ path, entryAt (j :: rest) path = entryAt (k :: rest') path) :
    j.identity = k.identity := by
  -- whichever stood first would have an entry on its own side only
  cases hcmp : j.identity.cmp k.identity with
  | eq => exact JoinIdentity.eq_of_cmp_eq_eq hcmp
  | lt => exact absurd hcmp (not_before_of_entryAt_eq hk fun path => (h path).symm)
  | gt =>
    exact absurd (JoinIdentity.before_of_cmp_eq_gt hcmp) (not_before_of_entryAt_eq hj h)

/-- Siblings in order are determined by their entries. -/
theorem Ordered.eq_of_entryAt_eq {S T : List Join} (hS : Ordered S) (hT : Ordered T)
    (h : ∀ path, entryAt S path = entryAt T path) : S = T := by
  induction hS generalizing T with
  | nil =>
    cases hT with
    | nil => rfl
    | @cons k rest _ _ _ =>
      have hk := h [k.identity]
      rw [entryAt_nil, entryAt, get?_cons_self] at hk
      cases hk
  | @cons j rest first children others below after =>
    cases hT with
    | nil =>
      have hj := h [j.identity]
      rw [entryAt_nil, entryAt, get?_cons_self] at hj
      cases hj
    | @cons k rest' first' children' others' =>
      have hidentity : j.identity = k.identity :=
        identity_eq_of_entryAt_eq (.cons first children others)
          (.cons first' children' others') h
      have hj : get? (j :: rest) j.identity = some j := get?_cons_self j rest
      have hk : get? (k :: rest') j.identity = some k := by rw [hidentity, get?_cons_self]
      have hentry : (j.filter, j.fetch) = (k.filter, k.fetch) := by
        simpa [entryAt, hj, hk] using h [j.identity]
      have hchildren : j.children = k.children := by
        refine below children' fun path => ?_
        by_cases hpath : path = []
        · subst hpath
          rfl
        · rw [← entryAt_below hj hpath, ← entryAt_below hk hpath, h]
      have hrest : rest = rest' := by
        refine after others' fun path => ?_
        cases path with
        | nil => rfl
        | cons identity path =>
          by_cases heq : j.identity = identity
          · -- no other sibling has the identity of the first
            subst heq
            rw [entryAt_eq_none (get?_eq_none_of_before first),
              entryAt_eq_none (get?_eq_none_of_before (hidentity ▸ first'))]
          · rw [← entryAt_congr (get?_cons_of_ne heq rest) path,
              ← entryAt_congr (get?_cons_of_ne (hidentity ▸ heq) rest') path, h]
      have hjoin : j = k := by
        obtain ⟨hkey, hkind⟩ := JoinIdentity.mk.inj hidentity
        obtain ⟨hfilter, hfetch⟩ := Prod.mk.inj hentry
        cases j
        cases k
        simp_all
      rw [hjoin, hrest]

/-- Siblings that are there already change nothing. -/
theorem insertAll_self {S : List Join} (hS : Ordered S) : insertAll S S = S :=
  (ordered_insertAll hS hS).eq_of_entryAt_eq hS fun path => by
    rw [isUnion_insertAll hS hS, Option.or_self]

/-- A join that has been inserted changes nothing when it is inserted again. -/
theorem insert_insert_self {S : List Join} {s : Join} (hS : Ordered S)
    (hs : Ordered s.children) : insert (insert S s) s = insert S s := by
  have hinsert : Ordered (insert S s) := ordered_insert hS hs
  refine (ordered_insert hinsert hs).eq_of_entryAt_eq hinsert fun path => ?_
  rw [isUnion_insert hinsert hs, isUnion_insert hS hs, Option.or_assoc, Option.or_self]

/-- Siblings may be inserted into each other before they are inserted. -/
theorem insertAll_assoc {S T U : List Join} (hS : Ordered S) (hT : Ordered T) (hU : Ordered U) :
    insertAll U (insertAll T S) = insertAll (insertAll U T) S := by
  have hTS : Ordered (insertAll T S) := ordered_insertAll hT hS
  have hUT : Ordered (insertAll U T) := ordered_insertAll hU hT
  refine (ordered_insertAll hU hTS).eq_of_entryAt_eq (ordered_insertAll hUT hS) fun path => ?_
  rw [isUnion_insertAll hU hTS, isUnion_insertAll hT hS, isUnion_insertAll hUT hS,
    isUnion_insertAll hU hT, Option.or_assoc]

end Criteria.Join
