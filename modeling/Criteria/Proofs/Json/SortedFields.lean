import Mathlib.Data.List.Dedup
import Mathlib.Data.List.Induction
import Mathlib.Data.String.Basic
import Criteria.Json.Basic

/-!
# Sorted fields

Fields that are sorted by key are a finite map: each key stands there once, with the last value
that it was given.

## Main statements

- `Json.lookup?_insertField`: putting a value at a key changes nothing at other keys
- `Json.pairwise_sortFields`, `Json.mem_keys_sortFields`: the keys of sorted fields
- `Json.sortFields_perm`: sorting fields with different keys keeps them all
- `Json.lookup?_sortFields_of_not_mem`: the last value of a key stays
- `Json.length_sortFields_eq_iff`: no field is lost if and only if no key is there twice
-/

namespace Criteria.Json

variable {fields : List (String × Json)}

theorem lookup?_insertField (k key : String) (value : Json) (fields : List (String × Json)) :
    lookup? k (insertField key value fields) =
      if key = k then some value else lookup? k fields := by
  by_cases hk : key = k
  · rw [if_pos hk, ← hk, lookup?_insertField_self]
  rw [if_neg hk]
  induction fields with
  | nil => exact if_neg hk
  | cons field rest ih =>
    obtain ⟨k', v⟩ := field
    rw [insertField]
    split_ifs with hbefore heq
    · rw [lookup?, if_neg hk]
    · rw [lookup?, lookup?, if_neg hk, if_neg (heq ▸ hk)]
    · rw [lookup?, lookup?, ih]

theorem mem_keys_insertField {k key : String} {value : Json} :
    k ∈ (insertField key value fields).map Prod.fst ↔ k = key ∨ k ∈ fields.map Prod.fst := by
  induction fields with
  | nil => simp only [insertField, List.map_cons, List.map_nil, List.mem_cons]
  | cons field rest ih =>
    obtain ⟨k', v⟩ := field
    rw [insertField]
    split_ifs with hbefore heq
    · simp only [List.map_cons, List.mem_cons]
    · simp only [heq, List.map_cons, List.mem_cons, or_self_left]
    · rw [List.map_cons, List.mem_cons, ih, List.map_cons, List.mem_cons, or_left_comm]

theorem pairwise_insertField {key : String} {value : Json}
    (h : (fields.map Prod.fst).Pairwise (· < ·)) :
    ((insertField key value fields).map Prod.fst).Pairwise (· < ·) := by
  induction fields with
  | nil => exact List.pairwise_singleton _ key
  | cons field rest ih =>
    obtain ⟨k', v⟩ := field
    obtain ⟨hk', hrest⟩ := List.pairwise_cons.mp h
    rw [insertField]
    split_ifs with hbefore heq
    · exact h.cons (List.forall_mem_cons.mpr ⟨hbefore, fun k hk => hbefore.trans (hk' k hk)⟩)
    · exact hrest.cons (heq ▸ hk')
    · refine (ih hrest).cons fun k hk => ?_
      obtain rfl | hk := mem_keys_insertField.mp hk
      · exact lt_of_le_of_ne (not_lt.mp hbefore) (Ne.symm heq)
      · exact hk' k hk

theorem sortFields_concat (fields : List (String × Json)) (key : String) (value : Json) :
    sortFields (fields ++ [(key, value)]) = insertField key value (sortFields fields) :=
  List.foldl_concat _ _ _ _

theorem pairwise_sortFields (fields : List (String × Json)) :
    ((sortFields fields).map Prod.fst).Pairwise (· < ·) := by
  induction fields using List.reverseRecOn with
  | nil => exact .nil
  | append_singleton fields field ih =>
    rw [sortFields_concat]
    exact pairwise_insertField ih

theorem mem_keys_sortFields {key : String} :
    key ∈ (sortFields fields).map Prod.fst ↔ key ∈ fields.map Prod.fst := by
  induction fields using List.reverseRecOn with
  | nil => rfl
  | append_singleton fields field ih =>
    rw [sortFields_concat, mem_keys_insertField, ih, List.map_append, List.mem_append, or_comm]
    exact or_congr_right List.mem_singleton.symm

theorem insertField_perm {key : String} (hkey : key ∉ fields.map Prod.fst) (value : Json) :
    (insertField key value fields).Perm ((key, value) :: fields) := by
  induction fields with
  | nil => exact .refl _
  | cons field rest ih =>
    obtain ⟨k, v⟩ := field
    rw [List.map_cons, List.mem_cons, not_or] at hkey
    rw [insertField]
    split
    · exact .refl _
    · rw [if_neg hkey.1]
      exact ((ih hkey.2).cons _).trans (.swap _ _ _)

/-- Sorting fields with different keys keeps them all. -/
theorem sortFields_perm (h : (fields.map Prod.fst).Nodup) : (sortFields fields).Perm fields := by
  induction fields using List.reverseRecOn with
  | nil => exact .refl _
  | append_singleton fields field ih =>
    rw [List.map_append, List.map_singleton, List.nodup_append_comm] at h
    obtain ⟨hkey, hfields⟩ := List.nodup_cons.mp h
    rw [sortFields_concat]
    exact (insertField_perm (mem_keys_sortFields.not.mpr hkey) field.2).trans
      (((ih hfields).cons field).trans (List.perm_append_singleton _ _).symm)

/-- The value that a key is given last stays. -/
theorem lookup?_sortFields_of_not_mem {before after : List (String × Json)} {key : String}
    {value : Json} (h : key ∉ after.map Prod.fst) :
    lookup? key (sortFields (before ++ (key, value) :: after)) = some value := by
  induction after using List.reverseRecOn with
  | nil => rw [sortFields_concat, lookup?_insertField_self]
  | append_singleton after field ih =>
    rw [List.map_append, List.mem_append, not_or] at h
    have hne : field.1 ≠ key := fun heq => h.2 (List.mem_singleton.mpr heq.symm)
    rw [← List.cons_append, ← List.append_assoc, sortFields_concat, lookup?_insertField,
      if_neg hne, ih h.1]

theorem length_sortFields_eq_iff :
    (sortFields fields).length = fields.length ↔ (fields.map Prod.fst).Nodup := by
  have hnodup : ((sortFields fields).map Prod.fst).Nodup :=
    (pairwise_sortFields fields).imp ne_of_lt
  have hperm : ((sortFields fields).map Prod.fst).Perm (fields.map Prod.fst).dedup :=
    (List.perm_ext_iff_of_nodup hnodup (List.nodup_dedup _)).mpr fun key => by
      rw [mem_keys_sortFields, List.mem_dedup]
  rw [← List.length_map Prod.fst, hperm.length_eq, ← List.length_map Prod.fst,
    ← List.dedup_eq_self]
  exact ⟨(List.dedup_sublist _).eq_of_length, congrArg List.length⟩

end Criteria.Json
