import Criteria.Proofs.Document.SortOrder
import Criteria.Proofs.Sorting.Stability
import Criteria.Sorting

/-!
# Sorted documents

Documents are sorted by the keys of their values under several fields. The result is the stable
sort by the lexicographic order of these keys, each in the direction of its field, so it may be
reached field by field as well, beginning with the last.

## Main definitions

- `SortField.keyCmp`, `SortField.keyCmpAll`: the order of documents by the keys of their values
- `SortField.Sortable`: documents with values that have a place in sorting

## Main statements

- `SortField.cmpAll_eq_keyCmpAll`: documents are compared by the keys of their values
- `isStableSort_sortDocuments`: documents are sorted stably
- `sortDocuments_stable`: the sorted documents are described without sorting
-/

namespace Criteria

/-- An order in either direction is a total preorder if the order is. -/
theorem SortDirection.transCmp_apply {α : Type} {cmp : α → α → Ordering} (h : Std.TransCmp cmp)
    (d : SortDirection) : Std.TransCmp fun a b => d.apply (cmp a b) := by
  cases d with
  | ascending => exact h
  | descending =>
    have hopposite : (fun a b => (cmp a b).swap) = fun a b => cmp b a :=
      funext₂ fun a b => h.eq_swap.symm
    show Std.TransCmp fun a b => (cmp a b).swap
    rw [hopposite]
    exact h.opposite

namespace SortField

/-- The order of documents by the keys that their values of one field have. -/
def keyCmp (f : SortField) (a b : Json) : Ordering :=
  f.direction.apply ((SortKey.of? (a.resolve? f.field)).cmp (.of? (b.resolve? f.field)))

/-- The lexicographic order of documents by the keys of several fields. -/
def keyCmpAll : List SortField → Json → Json → Ordering
  | [] => fun _ _ => .eq
  | f :: rest => compareLex f.keyCmp (keyCmpAll rest)

/-- The values of a document have their places in sorting. -/
def Sortable (fields : List SortField) (document : Json) : Prop :=
  ∀ f ∈ fields, Json.IsSortable (document.resolve? f.field)

instance (fields : List SortField) : DecidablePred (Sortable fields) := fun document =>
  inferInstanceAs (Decidable (∀ f ∈ fields, Json.IsSortable (document.resolve? f.field)))

instance transCmp_keyCmp (f : SortField) : Std.TransCmp f.keyCmp := by
  let key (j : Json) : SortKey := .of? (j.resolve? f.field)
  have hkeys : Std.TransCmp fun a b : Json => (key a).cmp (key b) :=
    { eq_swap := Std.OrientedCmp.eq_swap, isLE_trans := Std.TransCmp.isLE_trans }
  exact SortDirection.transCmp_apply hkeys f.direction

instance transCmp_keyCmpAll (fields : List SortField) : Std.TransCmp (keyCmpAll fields) := by
  induction fields with
  | nil => exact { eq_swap := rfl, isLE_trans := fun h _ => h }
  | cons f rest ih => exact inferInstanceAs (Std.TransCmp (compareLex f.keyCmp (keyCmpAll rest)))

theorem keyCmpAll_append (fields more : List SortField) :
    keyCmpAll (fields ++ more) = compareLex (keyCmpAll fields) (keyCmpAll more) := by
  funext a b
  induction fields with
  | nil => rfl
  | cons f rest ih =>
    rw [List.cons_append, keyCmpAll, keyCmpAll, compareLex, ih, compareLex, compareLex, compareLex]
    exact (Ordering.then_assoc _ _ _).symm

variable {fields : List SortField} {a b : Json}

theorem cmp_eq_keyCmp {f : SortField} (ha : Json.IsSortable (a.resolve? f.field))
    (hb : Json.IsSortable (b.resolve? f.field)) : f.cmp a b = f.keyCmp a b := by
  rw [cmp, keyCmp, Json.sortCmp_eq ha hb]

theorem cmpAll_eq_keyCmpAll (ha : Sortable fields a) (hb : Sortable fields b) :
    cmpAll fields a b = keyCmpAll fields a b := by
  induction fields with
  | nil => rfl
  | cons f rest ih =>
    obtain ⟨ha, haRest⟩ := List.forall_mem_cons.mp ha
    obtain ⟨hb, hbRest⟩ := List.forall_mem_cons.mp hb
    rw [cmpAll, cmp_eq_keyCmp ha hb, ih haRest hbRest]
    rfl

end SortField

variable {fields : List SortField} {documents : List Json}

theorem sortDocuments_eq (h : ∀ d ∈ documents, SortField.Sortable fields d) :
    sortDocuments fields documents =
      documents.mergeSort fun a b => (SortField.keyCmpAll fields a b).isLE := by
  have hle (a : Json) (ha : a ∈ documents) (b : Json) (hb : b ∈ documents) :
      (SortField.cmpAll fields a b != .gt) = (SortField.keyCmpAll fields a b).isLE := by
    rw [SortField.cmpAll_eq_keyCmpAll (h a ha) (h b hb)]
    cases SortField.keyCmpAll fields a b <;> rfl
  exact mergeSort_congr hle

theorem isStableSort_sortDocuments (h : ∀ d ∈ documents, SortField.Sortable fields d) :
    IsStableSort (SortField.keyCmpAll fields) documents (sortDocuments fields documents) := by
  rw [sortDocuments_eq h]
  exact isStableSort_mergeSort documents

theorem sortDocuments_perm (fields : List SortField) (documents : List Json) :
    (sortDocuments fields documents).Perm documents :=
  List.mergeSort_perm documents _

/-- Documents are sorted stably by the keys of their fields.

1. The result is a permutation of the documents. Two of them compare like the keys that they have
   in the fields, lexicographically; in one field the places of the kinds decide first, in its
   direction: from missing values, null, booleans, numbers, texts that denote points in time and
   other texts to arrays and objects.
2. The result is in this order, and documents that are equal in all fields keep their order. No
   other list is like that.
3. Sorting once more changes nothing. Sorting by some fields and then by others comes to the same
   as sorting by the others first and then by the former. -/
theorem sortDocuments_stable {fields more : List SortField} {documents : List Json}
    (h : ∀ d ∈ documents, SortField.Sortable (fields ++ more) d) :
    (sortDocuments fields documents).Perm documents ∧
    (∀ a ∈ documents, ∀ b ∈ documents,
      SortField.cmpAll fields a b = SortField.keyCmpAll fields a b ∧
      ∀ f ∈ fields,
        (SortKey.of? (a.resolve? f.field)).place < (SortKey.of? (b.resolve? f.field)).place →
          f.cmp a b = f.direction.apply .lt) ∧
    IsStableSort (SortField.keyCmpAll fields) documents (sortDocuments fields documents) ∧
    (∀ sorted, IsStableSort (SortField.keyCmpAll fields) documents sorted →
      sorted = sortDocuments fields documents) ∧
    sortDocuments fields (sortDocuments fields documents) = sortDocuments fields documents ∧
    sortDocuments (fields ++ more) documents =
      sortDocuments fields (sortDocuments more documents) := by
  have hfields (d : Json) (hd : d ∈ documents) : SortField.Sortable fields d :=
    fun f hf => h d hd f (List.mem_append_left _ hf)
  have hmore (d : Json) (hd : d ∈ documents) : SortField.Sortable more d :=
    fun f hf => h d hd f (List.mem_append_right _ hf)
  have hsorted := isStableSort_sortDocuments hfields
  have hagain := isStableSort_sortDocuments fun d hd =>
    hfields d ((sortDocuments_perm fields documents).mem_iff.mp hd)
  have hboth := (isStableSort_sortDocuments hmore).lex (isStableSort_sortDocuments fun d hd =>
    hfields d ((sortDocuments_perm more documents).mem_iff.mp hd))
  rw [← SortField.keyCmpAll_append] at hboth
  refine ⟨sortDocuments_perm fields documents, fun a ha b hb => ⟨?_, fun f hf hplace => ?_⟩,
    hsorted, fun sorted hother => hother.unique hsorted,
    hagain.unique (isStableSort_self hsorted.ordered), (isStableSort_sortDocuments h).unique hboth⟩
  · exact SortField.cmpAll_eq_keyCmpAll (hfields a ha) (hfields b hb)
  · rw [SortField.cmp_eq_keyCmp (hfields a ha f hf) (hfields b hb f hf), SortField.keyCmp,
      SortKey.cmp_of_place_lt hplace]

/-- A post with a name and a rank. -/
def rankedPost (name : String) (rank : Json) : Json :=
  .object [("name", .text name), ("rank", rank)]

/-- Two posts have the same rank, written in two ways, and one has none. The greatest rank comes
first, and names decide between equal ranks; a name that is a date comes before the others. -/
theorem sortDocuments_stable_ranked :
    let byRank : List SortField := [⟨"rank", .descending⟩]
    let byName : List SortField := [⟨"name", .ascending⟩]
    let b := rankedPost "b" (.number (.int 1))
    let a := rankedPost "a" (.number (.double (.ofInt 1)))
    let dated := rankedPost "2024-01-02" .null
    sortDocuments (byRank ++ byName) [b, a, dated] = [a, b, dated] ∧
      sortDocuments byRank (sortDocuments byName [b, a, dated]) = [a, b, dated] ∧
      (sortDocuments byRank [b, a, dated]).filter (ties (SortField.keyCmpAll byRank) a) =
        [b, a, dated].filter (ties (SortField.keyCmpAll byRank) a) := by
  intro byRank byName b a dated
  have hba : SortField.cmpAll (byRank ++ byName) b a = .gt := by decide +kernel
  have hbDated : SortField.cmpAll (byRank ++ byName) b dated = .lt := by decide +kernel
  have haDated : SortField.cmpAll (byRank ++ byName) a dated = .lt := by decide +kernel
  have hsorted : sortDocuments (byRank ++ byName) [b, a, dated] = [a, b, dated] := by
    simp [sortDocuments, List.mergeSort, List.MergeSort.Internal.splitInTwo, hba, hbDated, haDated]
  have hsortable : ∀ d ∈ [b, a, dated], SortField.Sortable (byRank ++ byName) d := by
    decide +kernel
  obtain ⟨-, -, hstable, -, -, hsteps⟩ := sortDocuments_stable hsortable
  exact ⟨hsorted, hsteps ▸ hsorted, hstable.kept a⟩

end Criteria
