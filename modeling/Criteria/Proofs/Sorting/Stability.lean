import Mathlib.Data.List.Basic
import Mathlib.Order.Compare

/-!
# Stable sorting

A stable sort puts the elements of a list in order and leaves those that tie as they were. There is
one result only, whatever the algorithm, so sorting can be described without one.

## Main definitions

- `ties`: neither of two elements comes before the other
- `IsStableSort`: a list in order, where elements that tie keep their order

## Main statements

- `isStableSort_mergeSort`: merge sort is stable
- `IsStableSort.unique`: a list has one stable sort
- `IsStableSort.lex`: sorting by a second order and then by a first one sorts by both
-/

namespace Criteria

variable {α : Type} {cmp : α → α → Ordering} {list : List α}

/-- Neither of two elements comes before the other. -/
def ties (cmp : α → α → Ordering) (a b : α) : Bool :=
  cmp a b == .eq

/-- The elements of a list put in order, where those that tie keep the order that they have in the
list. -/
structure IsStableSort (cmp : α → α → Ordering) (list sorted : List α) : Prop where
  ordered : sorted.Pairwise fun a b => (cmp a b).isLE
  kept : ∀ a, sorted.filter (ties cmp a) = list.filter (ties cmp a)

/-- A list that is in order is sorted already. -/
theorem isStableSort_self (h : list.Pairwise fun a b => (cmp a b).isLE) :
    IsStableSort cmp list list :=
  ⟨h, fun _ => rfl⟩

theorem ties_iff {a b : α} : ties cmp a b = true ↔ cmp a b = .eq :=
  beq_iff_eq

/-- Sorting compares members of the list with each other only. -/
theorem mergeSort_congr {le le' : α → α → Bool} (h : ∀ a ∈ list, ∀ b ∈ list, le a b = le' a b) :
    list.mergeSort le = list.mergeSort le' := by
  have hsort : (list.mergeSort le).map id = (list.map id).mergeSort le' := List.map_mergeSort h
  rwa [List.map_id, List.map_id] at hsort

section Unique

variable [Std.TransCmp cmp]

theorem ties_self (a : α) : ties cmp a a = true :=
  ties_iff.mpr Std.ReflCmp.compare_self

theorem mem_of_filter_eq {xs ys : List α} {a : α}
    (h : xs.filter (ties cmp a) = ys.filter (ties cmp a)) (ha : a ∈ xs) : a ∈ ys := by
  have hmem : a ∈ xs.filter (ties cmp a) := List.mem_filter.mpr ⟨ha, ties_self a⟩
  rw [h] at hmem
  exact (List.mem_filter.mp hmem).1

theorem isLE_of_mem_cons {a b : α} {xs : List α}
    (h : (a :: xs).Pairwise fun a b => (cmp a b).isLE) (hb : b ∈ a :: xs) : (cmp a b).isLE := by
  rcases List.mem_cons.mp hb with rfl | hmem
  · exact Std.ReflCmp.isLE_rfl
  · exact List.rel_of_pairwise_cons h hmem

/-- Lists in order are the same if they have the same elements of each place in the same order. -/
theorem eq_of_ordered {xs ys : List α} (hxs : xs.Pairwise fun a b => (cmp a b).isLE)
    (hys : ys.Pairwise fun a b => (cmp a b).isLE)
    (h : ∀ a, xs.filter (ties cmp a) = ys.filter (ties cmp a)) : xs = ys := by
  induction xs generalizing ys with
  | nil =>
    refine (List.eq_nil_iff_forall_not_mem.mpr fun a ha => ?_).symm
    exact List.not_mem_nil (mem_of_filter_eq (h a).symm ha)
  | cons x xs ih =>
    cases ys with
    | nil => exact absurd (mem_of_filter_eq (h x) List.mem_cons_self) List.not_mem_nil
    | cons y ys =>
      -- each of the first elements is among the others, so they tie, and are the first that do
      have hxy := isLE_of_mem_cons hxs (mem_of_filter_eq (h y).symm List.mem_cons_self)
      have hyx := isLE_of_mem_cons hys (mem_of_filter_eq (h x) List.mem_cons_self)
      have hties : ties cmp x y = true := ties_iff.mpr (Std.OrientedCmp.isLE_antisymm hxy hyx)
      have hfirst := h x
      rw [List.filter_cons_of_pos (ties_self x), List.filter_cons_of_pos hties] at hfirst
      obtain rfl := (List.cons.inj hfirst).1
      congr 1
      refine ih hxs.of_cons hys.of_cons fun a => ?_
      have hrest := h a
      by_cases ha : ties cmp a x = true
      · rw [List.filter_cons_of_pos ha, List.filter_cons_of_pos ha] at hrest
        exact (List.cons.inj hrest).2
      · rwa [List.filter_cons_of_neg ha, List.filter_cons_of_neg ha] at hrest

/-- There is one way only to sort a list stably. -/
theorem IsStableSort.unique {xs ys : List α} (hxs : IsStableSort cmp list xs)
    (hys : IsStableSort cmp list ys) : xs = ys :=
  eq_of_ordered hxs.ordered hys.ordered fun a => (hxs.kept a).trans (hys.kept a).symm

theorem isStableSort_mergeSort (list : List α) :
    IsStableSort cmp list (list.mergeSort fun a b => (cmp a b).isLE) := by
  have htrans (a b c : α) :
      (cmp a b).isLE = true → (cmp b c).isLE = true → (cmp a c).isLE = true :=
    Std.TransCmp.isLE_trans
  have htotal (a b : α) : ((cmp a b).isLE || (cmp b a).isLE) = true := by
    have hswap : cmp b a = (cmp a b).swap := Std.OrientedCmp.eq_swap
    rw [hswap]
    cases cmp a b <;> rfl
  refine ⟨List.pairwise_mergeSort htrans htotal list, fun a => ?_⟩
  -- those that tie are in order wherever they stand, so they are found in the same order
  have hinorder : (list.filter (ties cmp a)).Pairwise fun b c => (cmp b c).isLE = true := by
    refine List.pairwise_of_forall_mem_list fun b hb c hc => ?_
    have hab := ties_iff.mp (List.mem_filter.mp hb).2
    have hac := ties_iff.mp (List.mem_filter.mp hc).2
    have hbc : cmp b c = .eq := Std.TransCmp.eq_trans (Std.OrientedCmp.eq_symm hab) hac
    rw [hbc]
    rfl
  have hsublist := (List.sublist_mergeSort htrans htotal hinorder List.filter_sublist).filter
    (ties cmp a)
  rw [List.filter_filter] at hsublist
  simp only [Bool.and_self] at hsublist
  exact (hsublist.eq_of_length ((List.mergeSort_perm _ _).filter _).length_eq.symm).symm

end Unique

section Lex

variable {first second : α → α → Ordering}

theorem ties_compareLex (a b : α) :
    ties (compareLex first second) a b = (ties first a b && ties second a b) := by
  rw [ties, ties, ties, compareLex]
  cases first a b <;> rfl

theorem filter_ties_compareLex (a : α) (xs : List α) :
    xs.filter (ties (compareLex first second) a) =
      (xs.filter (ties first a)).filter (ties second a) := by
  rw [List.filter_filter]
  exact List.filter_congr fun b _ => by rw [ties_compareLex, Bool.and_comm]

/-- Sorting by a second order before a first one sorts by both: the first moves no two elements that
tie in it. -/
theorem IsStableSort.lex [Std.TransCmp first] {middle sorted : List α}
    (hsecond : IsStableSort second list middle) (hfirst : IsStableSort first middle sorted) :
    IsStableSort (compareLex first second) list sorted := by
  constructor
  · refine List.pairwise_iff_forall_sublist.mpr fun {a b} hab => ?_
    have hle := List.pairwise_iff_forall_sublist.mp hfirst.ordered hab
    cases hcmp : first a b with
    | lt =>
      rw [compareLex, hcmp]
      rfl
    | gt =>
      rw [hcmp] at hle
      cases hle
    | eq =>
      have hboth : [a, b].filter (ties first a) = [a, b] := by
        simp [ties_self, ties_iff.mpr hcmp]
      have hmiddle : [a, b].Sublist (middle.filter (ties first a)) := by
        rw [← hfirst.kept, ← hboth]
        exact hab.filter _
      rw [compareLex, hcmp]
      exact List.pairwise_iff_forall_sublist.mp hsecond.ordered
        (hmiddle.trans List.filter_sublist)
  · intro a
    calc sorted.filter (ties (compareLex first second) a)
        = (middle.filter (ties first a)).filter (ties second a) := by
          rw [filter_ties_compareLex, hfirst.kept]
      _ = (list.filter (ties second a)).filter (ties first a) := by
          rw [List.filter_comm, hsecond.kept]
      _ = list.filter (ties (compareLex first second) a) := by
          rw [List.filter_comm, filter_ties_compareLex]

end Lex

end Criteria
