import Criteria.Join.Insertion

/-!
# The order of siblings

Siblings stand in strictly increasing order of their identities, at every depth. Insertion
keeps this order, so an identity leads to at most one join.

## Main definitions

- `JoinIdentity.Before`: the strict order of identities
- `Join.Ordered`: siblings in order, at every depth

## Main statements

- `Join.get?_place`: what is found among siblings after a join is put in its place
- `Join.ordered_place`: a join put in its place leaves the siblings in order
-/

namespace Criteria

theorem JoinKind.eq_of_rank_eq {a b : JoinKind} (h : a.rank = b.rank) : a = b := by
  cases a <;> cases b <;> first | rfl | cases h

namespace JoinIdentity

instance : Std.TransCmp cmp := by
  unfold cmp
  infer_instance

instance : Std.LawfulEqCmp cmp where
  eq_of_compare {a b} h := by
    obtain ⟨hkey, hkind⟩ := compareLex_eq_eq.mp h
    have hkey' : a.key = b.key := Std.LawfulEqCmp.eq_of_compare hkey
    have hkind' : a.kind = b.kind :=
      JoinKind.eq_of_rank_eq (Std.LawfulEqCmp.eq_of_compare hkind)
    cases a
    cases b
    simp_all

/-- An identity stands before another one among siblings. -/
def Before (a b : JoinIdentity) : Prop :=
  a.cmp b = .lt

theorem Before.trans {a b c : JoinIdentity} (hab : a.Before b) (hbc : b.Before c) :
    a.Before c :=
  Std.TransCmp.lt_trans hab hbc

theorem Before.ne {a b : JoinIdentity} (h : a.Before b) : a ≠ b := by
  rintro rfl
  have hself : cmp a a = .eq := Std.ReflCmp.compare_self
  rw [Before, hself] at h
  cases h

theorem before_of_cmp_eq_gt {a b : JoinIdentity} (h : a.cmp b = .gt) : b.Before a :=
  Std.OrientedCmp.gt_iff_lt.mp h

theorem eq_of_cmp_eq_eq {a b : JoinIdentity} (h : a.cmp b = .eq) : a = b :=
  Std.LawfulEqCmp.eq_of_compare h

end JoinIdentity

namespace Join

/-- Siblings in strictly increasing order of their identities, and so their children at every
depth. -/
inductive Ordered : List Join → Prop
  | nil : Ordered []
  | cons {j : Join} {rest : List Join} (first : ∀ k ∈ rest, j.identity.Before k.identity)
      (children : Ordered j.children) (others : Ordered rest) : Ordered (j :: rest)

theorem Ordered.pairwise {siblings : List Join} (h : Ordered siblings) :
    siblings.Pairwise fun j k => j.identity.Before k.identity := by
  induction h with
  | nil => exact .nil
  | cons first _ _ _ ih => exact .cons first ih

theorem Ordered.nodup {siblings : List Join} (h : Ordered siblings) :
    (siblings.map identity).Nodup :=
  List.pairwise_map.mpr (h.pairwise.imp JoinIdentity.Before.ne)

theorem Ordered.children_of_mem {siblings : List Join} (h : Ordered siblings) {j : Join}
    (hj : j ∈ siblings) : Ordered j.children := by
  induction h with
  | nil => cases hj
  | cons first children _ _ ih =>
    rcases List.mem_cons.mp hj with rfl | hj
    · exact children
    · exact ih hj

theorem ordered_singleton {j : Join} (h : Ordered j.children) : Ordered [j] :=
  .cons (by simp) h .nil

theorem get?_cons_self (j : Join) (rest : List Join) : get? (j :: rest) j.identity = some j := by
  simp [get?]

theorem get?_cons_of_ne {j : Join} {identity : JoinIdentity} (h : j.identity ≠ identity)
    (rest : List Join) : get? (j :: rest) identity = get? rest identity := by
  simp [get?, h]

theorem mem_of_get?_eq_some {siblings : List Join} {identity : JoinIdentity} {j : Join}
    (h : get? siblings identity = some j) : j ∈ siblings :=
  List.mem_of_find?_eq_some h

theorem get?_eq_none_of_before {siblings : List Join} {identity : JoinIdentity}
    (h : ∀ k ∈ siblings, identity.Before k.identity) : get? siblings identity = none := by
  rw [get?, List.find?_eq_none]
  intro k hk
  simpa using (h k hk).ne.symm

/-- Nothing is found at an identity that stands before the first. -/
theorem Ordered.get?_before_head {j : Join} {rest : List Join} (h : Ordered (j :: rest))
    {identity : JoinIdentity} (hbefore : identity.Before j.identity) :
    get? (j :: rest) identity = none := by
  cases h with
  | cons first _ _ =>
    refine get?_eq_none_of_before fun k hk => ?_
    rcases List.mem_cons.mp hk with rfl | hk
    · exact hbefore
    · exact hbefore.trans (first k hk)

section Place

variable {j : Join} {merge : Join → Join} {siblings : List Join}

/-- A place among siblings changes what is found at one identity only. -/
theorem get?_place (hmerge : ∀ k, (merge k).identity = k.identity) (h : Ordered siblings)
    (identity : JoinIdentity) :
    get? (place j merge siblings) identity =
      if identity = j.identity then some (((get? siblings identity).map merge).getD j)
      else get? siblings identity := by
  induction h with
  | nil =>
    by_cases heq : identity = j.identity
    · subst heq
      simp [place, get?]
    · simp [place, get?, heq, Ne.symm heq]
  | @cons there rest first children others _ ih =>
    unfold place
    split
    · -- the new join comes first, and its identity occurs nowhere else
      rename_i hcmp
      have hnone : get? (there :: rest) j.identity = none :=
        (Ordered.cons first children others).get?_before_head hcmp
      by_cases heq : identity = j.identity
      · subst heq
        rw [if_pos rfl, get?_cons_self, hnone]
        rfl
      · rw [if_neg heq, get?_cons_of_ne (Ne.symm heq)]
    · -- the new join is merged into the first one
      rename_i hcmp
      have hidentity : j.identity = there.identity := JoinIdentity.eq_of_cmp_eq_eq hcmp
      by_cases heq : identity = there.identity
      · subst heq
        have hself : get? (merge there :: rest) there.identity = some (merge there) := by
          rw [← hmerge there, get?_cons_self]
        rw [if_pos hidentity.symm, hself, get?_cons_self]
        rfl
      · rw [hidentity, if_neg heq, get?_cons_of_ne (Ne.symm heq),
          get?_cons_of_ne (by rw [hmerge]; exact Ne.symm heq)]
    · -- the new join comes later, so the first one is found as before
      rename_i hcmp
      have hne : there.identity ≠ j.identity := (JoinIdentity.before_of_cmp_eq_gt hcmp).ne
      by_cases heq : identity = there.identity
      · subst heq
        rw [if_neg hne, get?_cons_self, get?_cons_self]
      · rw [get?_cons_of_ne (Ne.symm heq), get?_cons_of_ne (Ne.symm heq), ih]

theorem identity_of_mem_place (hmerge : ∀ k, (merge k).identity = k.identity) {k : Join}
    (hk : k ∈ place j merge siblings) :
    k.identity = j.identity ∨ ∃ there ∈ siblings, k.identity = there.identity := by
  induction siblings with
  | nil =>
    obtain rfl := List.mem_singleton.mp hk
    exact .inl rfl
  | cons there rest ih =>
    unfold place at hk
    split at hk
    · rcases List.mem_cons.mp hk with rfl | hk
      · exact .inl rfl
      · exact .inr ⟨k, hk, rfl⟩
    · rcases List.mem_cons.mp hk with rfl | hk
      · exact .inr ⟨there, List.mem_cons_self, hmerge there⟩
      · exact .inr ⟨k, List.mem_cons_of_mem there hk, rfl⟩
    · rcases List.mem_cons.mp hk with rfl | hk
      · exact .inr ⟨k, List.mem_cons_self, rfl⟩
      · rcases ih hk with heq | ⟨m, hm, heq⟩
        · exact .inl heq
        · exact .inr ⟨m, List.mem_cons_of_mem there hm, heq⟩

theorem ordered_place (hmerge : ∀ k, (merge k).identity = k.identity)
    (hchildren : ∀ k, Ordered k.children → Ordered (merge k).children)
    (hj : Ordered j.children) (h : Ordered siblings) : Ordered (place j merge siblings) := by
  induction h with
  | nil => exact ordered_singleton hj
  | @cons there rest first children others _ ih =>
    unfold place
    split
    · rename_i hcmp
      refine .cons (fun k hk => ?_) hj (.cons first children others)
      rcases List.mem_cons.mp hk with rfl | hk
      · exact hcmp
      · exact JoinIdentity.Before.trans hcmp (first k hk)
    · refine .cons (fun k hk => ?_) (hchildren there children) others
      rw [hmerge]
      exact first k hk
    · rename_i hcmp
      refine .cons (fun k hk => ?_) children ih
      rcases identity_of_mem_place hmerge hk with heq | ⟨m, hm, heq⟩
      · rw [heq]
        exact JoinIdentity.before_of_cmp_eq_gt hcmp
      · rw [heq]
        exact first m hm

end Place

end Join

end Criteria
