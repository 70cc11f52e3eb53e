import Mathlib.Data.List.Perm.Basic
import Criteria.Proofs.Json.Lexing
import Criteria.Proofs.Json.SortedFields

/-!
# Documents up to the order of fields

An object means the same whatever the order in which its fields are written. Documents that
differ in nothing else nest equally deep and are read equally well.

## Main definitions

- `Json.Rearranged`: a document with the fields of its objects in another order
- `Json.depth`: how deep arrays and objects nest

## Main statements

- `Json.Rearranged.depth_eq`, `Json.Rearranged.legible`: what the order of fields does not
  change
-/

namespace Criteria.Json

mutual

/-- The second document is the first one with the fields of its objects in another order. -/
def Rearranged : Json → Json → Prop
  | .null, j => j = .null
  | .bool b, j => j = .bool b
  | .number n, j => j = .number n
  | .text s, j => j = .text s
  | .array items, j => ∃ items', AllRearranged items items' ∧ j = .array items'
  | .object fields, j =>
    ∃ fields' written, FieldsRearranged fields fields' ∧ written.Perm fields' ∧
      j = .object written

def AllRearranged : List Json → List Json → Prop
  | [], items => items = []
  | item :: rest, items =>
    ∃ first others, item.Rearranged first ∧ AllRearranged rest others ∧ items = first :: others

def FieldsRearranged : List (String × Json) → List (String × Json) → Prop
  | [], fields => fields = []
  | (key, value) :: rest, fields =>
    ∃ first others, value.Rearranged first ∧ FieldsRearranged rest others ∧
      fields = (key, first) :: others

end

theorem fieldsRearranged_iff {fields fields' : List (String × Json)} :
    FieldsRearranged fields fields' ↔
      List.Forall₂ (fun f f' => f'.1 = f.1 ∧ f.2.Rearranged f'.2) fields fields' := by
  induction fields generalizing fields' with
  | nil => rw [FieldsRearranged, List.forall₂_nil_left_iff]
  | cons field rest ih =>
    rw [FieldsRearranged, List.forall₂_cons_left_iff]
    constructor
    · rintro ⟨first, others, hfirst, hothers, rfl⟩
      exact ⟨(field.1, first), others, ⟨rfl, hfirst⟩, ih.mp hothers, rfl⟩
    · rintro ⟨⟨key, value⟩, others, ⟨rfl, hvalue⟩, hothers, rfl⟩
      exact ⟨value, others, hvalue, ih.mpr hothers, rfl⟩

mutual

theorem rearranged_refl (j : Json) : j.Rearranged j := by
  cases j with
  | array items =>
    rw [Rearranged]
    exact ⟨items, allRearranged_refl items, rfl⟩
  | object fields =>
    rw [Rearranged]
    exact ⟨fields, fields, fieldsRearranged_refl fields, .refl fields, rfl⟩
  | _ => rw [Rearranged]

theorem allRearranged_refl (items : List Json) : AllRearranged items items := by
  match items with
  | [] => rw [AllRearranged]
  | item :: rest =>
    rw [AllRearranged]
    exact ⟨item, rest, rearranged_refl item, allRearranged_refl rest, rfl⟩

theorem fieldsRearranged_refl (fields : List (String × Json)) :
    FieldsRearranged fields fields := by
  match fields with
  | [] => rw [FieldsRearranged]
  | (key, value) :: rest =>
    rw [FieldsRearranged]
    exact ⟨value, rest, rearranged_refl value, fieldsRearranged_refl rest, rfl⟩

end

/-- An object with sorted fields may be written with its fields in any other order. -/
theorem rearranged_ofFields {fields fields' : List (String × Json)}
    (hkeys : (fields.map Prod.fst).Nodup) (h : FieldsRearranged fields fields') :
    (ofFields fields).Rearranged (.object fields') := by
  obtain ⟨between, hbetween, hperm⟩ :=
    List.perm_comp_forall₂ (sortFields_perm hkeys) (fieldsRearranged_iff.mp h)
  rw [ofFields, Rearranged]
  exact ⟨between, fields', fieldsRearranged_iff.mpr hbetween, hperm.symm, rfl⟩

theorem allRearranged_map {α : Type} {xs : List α} {doc doc' : α → Json}
    (h : ∀ x ∈ xs, (doc x).Rearranged (doc' x)) : AllRearranged (xs.map doc) (xs.map doc') := by
  induction xs with
  | nil => rw [List.map_nil, List.map_nil, AllRearranged]
  | cons x xs ih =>
    rw [List.map_cons, List.map_cons, AllRearranged]
    exact ⟨doc' x, xs.map doc', h x List.mem_cons_self,
      ih fun y hy => h y (List.mem_cons_of_mem x hy), rfl⟩

mutual

/-- How deep arrays and objects nest. -/
def depth : Json → Nat
  | .array items => itemsDepth items + 1
  | .object fields => fieldsDepth fields + 1
  | _ => 0

def itemsDepth : List Json → Nat
  | [] => 0
  | item :: rest => max item.depth (itemsDepth rest)

def fieldsDepth : List (String × Json) → Nat
  | [] => 0
  | (_, value) :: rest => max value.depth (fieldsDepth rest)

end

section Fields

variable {fields fields' : List (String × Json)}

theorem fieldsDepth_perm (h : fields.Perm fields') : fieldsDepth fields = fieldsDepth fields' := by
  induction h with
  | nil => rfl
  | cons field _ ih => rw [fieldsDepth, fieldsDepth, ih]
  | swap field other rest =>
    simp only [fieldsDepth]
    omega
  | trans _ _ ih ih' => rw [ih, ih']

theorem allLegible_iff {items : List Json} : AllLegible items ↔ ∀ item ∈ items, item.Legible := by
  induction items with
  | nil => simp [AllLegible]
  | cons first rest ih => rw [AllLegible, ih, List.forall_mem_cons]

theorem fieldsLegible_iff : FieldsLegible fields ↔ ∀ field ∈ fields, field.2.Legible := by
  induction fields with
  | nil => simp [FieldsLegible]
  | cons first rest ih => rw [FieldsLegible, ih, List.forall_mem_cons]

theorem fieldsLegible_perm (h : fields.Perm fields') (hlegible : FieldsLegible fields) :
    FieldsLegible fields' := by
  rw [fieldsLegible_iff] at hlegible ⊢
  exact fun field hfield => hlegible field (h.mem_iff.mpr hfield)

theorem legible_ofFields (h : (fields.map Prod.fst).Nodup)
    (hlegible : ∀ field ∈ fields, field.2.Legible) : (ofFields fields).Legible := by
  rw [ofFields, Legible]
  exact fieldsLegible_perm (sortFields_perm h).symm (fieldsLegible_iff.mpr hlegible)

end Fields

mutual

theorem Rearranged.depth_eq {j j' : Json} (h : j.Rearranged j') : j'.depth = j.depth := by
  cases j with
  | array items =>
    rw [Rearranged] at h
    obtain ⟨items', hitems, rfl⟩ := h
    rw [depth, depth, hitems.depth_eq]
  | object fields =>
    rw [Rearranged] at h
    obtain ⟨fields', written, hfields, hperm, rfl⟩ := h
    rw [depth, depth, fieldsDepth_perm hperm, hfields.depth_eq]
  | _ =>
    rw [Rearranged] at h
    rw [h]

theorem AllRearranged.depth_eq {items items' : List Json} (h : AllRearranged items items') :
    itemsDepth items' = itemsDepth items := by
  match items with
  | [] =>
    rw [AllRearranged] at h
    rw [h]
  | item :: rest =>
    rw [AllRearranged] at h
    obtain ⟨first, others, hfirst, hothers, rfl⟩ := h
    rw [itemsDepth, itemsDepth, hfirst.depth_eq, hothers.depth_eq]

theorem FieldsRearranged.depth_eq {fields fields' : List (String × Json)}
    (h : FieldsRearranged fields fields') : fieldsDepth fields' = fieldsDepth fields := by
  match fields with
  | [] =>
    rw [FieldsRearranged] at h
    rw [h]
  | (key, value) :: rest =>
    rw [FieldsRearranged] at h
    obtain ⟨first, others, hfirst, hothers, rfl⟩ := h
    rw [fieldsDepth, fieldsDepth, hfirst.depth_eq, hothers.depth_eq]

end

mutual

theorem Rearranged.legible {j j' : Json} (h : j.Rearranged j') (hj : j.Legible) :
    j'.Legible := by
  cases j with
  | array items =>
    rw [Rearranged] at h
    obtain ⟨items', hitems, rfl⟩ := h
    rw [Legible] at hj ⊢
    exact hitems.legible hj
  | object fields =>
    rw [Rearranged] at h
    obtain ⟨fields', written, hfields, hperm, rfl⟩ := h
    rw [Legible] at hj ⊢
    exact fieldsLegible_perm hperm.symm (hfields.legible hj)
  | _ =>
    rw [Rearranged] at h
    rwa [h]

theorem AllRearranged.legible {items items' : List Json} (h : AllRearranged items items')
    (hitems : AllLegible items) : AllLegible items' := by
  match items with
  | [] =>
    rw [AllRearranged] at h
    rwa [h]
  | item :: rest =>
    rw [AllRearranged] at h
    obtain ⟨first, others, hfirst, hothers, rfl⟩ := h
    rw [AllLegible] at hitems ⊢
    exact ⟨hfirst.legible hitems.1, hothers.legible hitems.2⟩

theorem FieldsRearranged.legible {fields fields' : List (String × Json)}
    (h : FieldsRearranged fields fields') (hfields : FieldsLegible fields) :
    FieldsLegible fields' := by
  match fields with
  | [] =>
    rw [FieldsRearranged] at h
    rwa [h]
  | (key, value) :: rest =>
    rw [FieldsRearranged] at h
    obtain ⟨first, others, hfirst, hothers, rfl⟩ := h
    rw [FieldsLegible] at hfields ⊢
    exact ⟨hfirst.legible hfields.1, hothers.legible hfields.2⟩

end

end Criteria.Json
