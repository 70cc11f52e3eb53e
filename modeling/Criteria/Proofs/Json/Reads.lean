import Mathlib.Data.List.Perm.Basic
import Criteria.Proofs.Json.Arrangement
import Criteria.Proofs.Json.Record

/-!
# Readers of written documents

A reader reads a document as a value if it yields the value wherever the document fits, in
whatever order the fields of its objects stand. Composite readers do so if the readers of
their parts do: a list item by item, and a record field by field, where the changes that the
fields make to a draft commute.

## Main definitions

- `Reader.Reads`: a reader yields a value from a document
- `Reader.Entry`: a field of a record, with the change it makes

## Main statements

- `Reader.reads_list`, `Reader.reads_record`: lists and records are read through their parts
-/

namespace Criteria.Reader

variable {ω α β σ : Type}

/-- The reader yields the value from the document, with the fields of objects in any order,
at every depth at which the document fits. -/
def Reads (ω : Type) (reader : Reader ω α) (doc : Json) (a : α) : Prop :=
  ∀ ⦃depth : Nat⦄ ⦃j : Json⦄, doc.Rearranged j → j.depth ≤ depth →
    (reader depth (.ofJson j)).outcome = .ok a

theorem Reads.map {reader : Reader ω α} {doc : Json} {a : α} (h : Reads ω reader doc a)
    (f : α → β) :
    Reads ω (fun depth tree => do
      let a ← reader depth tree
      return f a) doc (f a) := by
  intro depth j hj hdepth
  rw [Logged.outcome_bind_pure, h hj hdepth]
  rfl

theorem reads_text (s : String) : Reads ω text (.text s) s := by
  intro depth j hj _
  rw [Json.Rearranged] at hj
  subst hj
  rfl

theorem reads_bool (b : Bool) : Reads ω bool (.bool b) b := by
  intro depth j hj _
  rw [Json.Rearranged] at hj
  subst hj
  rfl

theorem reads_case {find? : String → Option α} {s : String} {a : α} (h : find? s = some a) :
    Reads ω (case find?) (.text s) a := by
  intro depth j hj _
  rw [Json.Rearranged] at hj
  subst hj
  have hname : (name depth (Tree.ofJson (.text s)) : Logged ω Mismatch String).outcome = .ok s := by
    rw [Tree.ofJson, name]
    rfl
  rw [case, Logged.outcome_bind, hname]
  simp only [Except.bind, h]
  rfl

/-- An object is a value and not null. -/
theorem reads_optional {reader : Reader ω α} {fields : List (String × Json)} {a : α}
    (h : Reads ω reader (.object fields) a) :
    Reads ω (optional reader) (.object fields) (some a) := by
  intro depth j hj hdepth
  have hread := h hj hdepth
  rw [Json.Rearranged] at hj
  obtain ⟨_, written, _, _, rfl⟩ := hj
  rw [Tree.ofJson] at hread ⊢
  rw [optional, Logged.outcome_bind_pure, hread]
  · rfl
  · exact Tree.noConfusion

section List

variable {reader : Reader ω α}

theorem outcome_items {depth : Nat} {as : List α} {items : List Json}
    (h : List.Forall₂ (fun a item => (reader depth (.ofJson item)).outcome = .ok a) as items) :
    (Reader.items reader depth (Tree.ofItems items)).outcome = .ok as := by
  induction h with
  | nil => rfl
  | cons hfirst _ ih =>
    rw [Tree.ofItems, Reader.items, Logged.outcome_bind, hfirst]
    simp only [Except.bind]
    rw [Logged.outcome_bind_pure, ih]
    rfl

theorem forall₂_of_allRearranged {depth : Nat} {xs : List β} {doc : β → Json} {value : β → α}
    (hread : ∀ x ∈ xs, Reads ω reader (doc x) (value x)) {items : List Json}
    (h : Json.AllRearranged (xs.map doc) items) (hdepth : Json.itemsDepth items ≤ depth) :
    List.Forall₂ (fun a item => (reader depth (.ofJson item)).outcome = .ok a)
      (xs.map value) items := by
  induction xs generalizing items with
  | nil =>
    rw [List.map_nil, Json.AllRearranged] at h
    subst h
    exact .nil
  | cons x xs ih =>
    rw [List.map_cons, Json.AllRearranged] at h
    obtain ⟨first, others, hfirst, hothers, rfl⟩ := h
    rw [Json.itemsDepth] at hdepth
    -- each item fits one level further in, since the deepest of them does
    refine .cons (hread x List.mem_cons_self hfirst (by omega)) ?_
    exact ih (fun y hy => hread y (List.mem_cons_of_mem x hy)) hothers (by omega)

theorem reads_list {xs : List β} {doc : β → Json} {value : β → α}
    (h : ∀ x ∈ xs, Reads ω reader (doc x) (value x)) :
    Reads ω (list reader) (.array (xs.map doc)) (xs.map value) := by
  intro depth j hj hdepth
  rw [Json.Rearranged] at hj
  obtain ⟨items, hitems, rfl⟩ := hj
  rw [Json.depth] at hdepth
  obtain ⟨inner, rfl⟩ := Nat.exists_eq_add_one.mpr (Nat.zero_lt_of_lt hdepth)
  exact outcome_items (forall₂_of_allRearranged h hitems (by omega))

end List

section Record

/-- A field of a record, with the change it makes to a draft. -/
structure Entry (σ : Type) where
  key : String
  value : Json
  change : σ → σ

def Entry.field (e : Entry σ) : String × Json :=
  (e.key, e.value)

/-- The field is there under the key of the entry, with its value rearranged. -/
def Entry.WrittenAs (e : Entry σ) (field : String × Json) : Prop :=
  field.1 = e.key ∧ e.value.Rearranged field.2

/-- The field is declared, and its reader yields the change. -/
def Entry.ReadBy (ω : Type) (names : List (List String)) (set : Nat → Reader ω (σ → σ))
    (e : Entry σ) : Prop :=
  ∃ i, names.findIdx? (·.contains e.key) = some i ∧ Reads ω (set i) e.value e.change

variable {names : List (List String)} {set : Nat → Reader ω (σ → σ)} {entries : List (Entry σ)}

theorem Entry.readBy_mk {key : String} {value : Json} {change : σ → σ} (i : Nat)
    (hplace : names.findIdx? (·.contains key) = some i) (h : Reads ω (set i) value change) :
    (Entry.mk key value change).ReadBy ω names set :=
  ⟨i, hplace, h⟩

/-- An object that has been rearranged holds the same entries. -/
theorem exists_entries_of_rearranged (hkeys : (entries.map Entry.key).Nodup) {j : Json}
    (h : (Json.ofFields (entries.map Entry.field)).Rearranged j) :
    ∃ es written, j = .object written ∧ es.Perm entries ∧
      List.Forall₂ Entry.WrittenAs es written := by
  rw [Json.ofFields, Json.Rearranged] at h
  obtain ⟨fields', written, hfields, hwritten, rfl⟩ := h
  have hnodup : ((entries.map Entry.field).map Prod.fst).Nodup := by rwa [List.map_map]
  -- sorting the fields and rearranging their values change places
  obtain ⟨between, hbetween, hperm⟩ :=
    List.perm_comp_forall₂ (Json.sortFields_perm hnodup).symm (Json.fieldsRearranged_iff.mp hfields)
  rw [List.forall₂_map_left_iff] at hbetween
  have hentries : List.Forall₂ Entry.WrittenAs entries between := hbetween
  obtain ⟨es, hes, hesperm⟩ :=
    List.perm_comp_forall₂ (hwritten.trans hperm.symm) hentries.flip
  exact ⟨es, written, rfl, hesperm, hes.flip⟩

/-- The fields of an object are read one after the other, if no two of them are for one
place. -/
theorem outcome_namedFields {depth : Nat} {written : List (String × Json)}
    (hwritten : List.Forall₂ Entry.WrittenAs entries written)
    (hread : ∀ e ∈ entries, e.ReadBy ω names set)
    (hplaces : (entries.map fun e => names.findIdx? (·.contains e.key)).Nodup)
    (hdepth : Json.fieldsDepth written ≤ depth) {seen : List Nat}
    (hseen : ∀ e ∈ entries, ∀ i ∈ seen, names.findIdx? (·.contains e.key) ≠ some i)
    (draft : σ) :
    (namedFields names set depth seen draft (Tree.ofFields written)).outcome =
      .ok (entries.foldl (fun d e => e.change d) draft) := by
  induction hwritten generalizing seen draft with
  | nil => rfl
  | @cons e field entries written hfield _ ih =>
    obtain ⟨key, value⟩ := field
    obtain ⟨rfl, hvalue⟩ := hfield
    obtain ⟨i, hplace, hset⟩ := hread e List.mem_cons_self
    rw [Json.fieldsDepth] at hdepth
    rw [List.map_cons, List.nodup_cons] at hplaces
    have hfresh : seen.contains i = false := by
      simpa using fun hi => hseen e List.mem_cons_self i hi hplace
    have hvalueDepth : value.depth ≤ depth := by omega
    have hchange := hset hvalue hvalueDepth
    have hseen' : ∀ e' ∈ entries, ∀ k ∈ i :: seen,
        names.findIdx? (·.contains e'.key) ≠ some k := by
      intro e' he' k hk
      rcases List.mem_cons.mp hk with rfl | hk
      · -- a second field for this place would repeat it
        rw [← hplace]
        exact fun heq => hplaces.1 (heq ▸ List.mem_map_of_mem he')
      · exact hseen e' (List.mem_cons_of_mem e he') k hk
    have hrest := ih (fun e' he' => hread e' (List.mem_cons_of_mem e he')) hplaces.2 (by omega)
      hseen' (e.change draft)
    simp only [Tree.ofFields, namedFields, hplace, hfresh, Bool.false_eq_true, if_false]
    rw [Logged.outcome_bind, hchange]
    exact hrest

/-- A record is read field by field. Some of the fields may be left out, and those that are
there may be in any order, since the changes that they make commute. -/
theorem reads_record {all : List (Entry σ)} (hsub : entries.Sublist all)
    (hread : ∀ e ∈ all, e.ReadBy ω names set)
    (hplaces : ((all.map Entry.key).map fun key => names.findIdx? (·.contains key)).Nodup)
    (hcomm : ∀ e ∈ all, ∀ e' ∈ all, ∀ d, e.change (e'.change d) = e'.change (e.change d))
    (draft : σ) :
    Reads ω (record names set draft) (.ofFields (entries.map Entry.field))
      (entries.foldl (fun d e => e.change d) draft) := by
  intro depth j hj hdepth
  have hplaced : ((entries.map Entry.key).map fun key => names.findIdx? (·.contains key)).Nodup :=
    hplaces.sublist ((hsub.map _).map _)
  have hkeys : (entries.map Entry.key).Nodup := hplaced.of_map
  rw [List.map_map] at hplaced
  obtain ⟨es, written, rfl, hperm, hwritten⟩ := exists_entries_of_rearranged hkeys hj
  rw [Json.depth] at hdepth
  obtain ⟨inner, rfl⟩ := Nat.exists_eq_add_one.mpr (Nat.zero_lt_of_lt hdepth)
  have hall : ∀ e ∈ es, e ∈ all := fun e he => hsub.subset (hperm.mem_iff.mp he)
  have hinner : Json.fieldsDepth written ≤ inner := by omega
  have hfields := outcome_namedFields hwritten (fun e he => hread e (hall e he))
    ((hperm.map _).nodup_iff.mpr hplaced) hinner (fun _ _ _ hi => absurd hi List.not_mem_nil) draft
  -- the fields come in the order of the text, and their changes commute
  have hfold : es.foldl (fun d e => e.change d) draft =
      entries.foldl (fun d e => e.change d) draft :=
    hperm.foldl_eq' (fun e he e' he' d => hcomm e' (hall e' he') e (hall e he) d) draft
  rw [Tree.ofJson, record, hfields, hfold]

theorem legible_record {all : List (Entry σ)} (hsub : entries.Sublist all)
    (hkeys : (all.map Entry.key).Nodup) (h : ∀ e ∈ all, e.value.Legible) :
    (Json.ofFields (entries.map Entry.field)).Legible := by
  refine Json.legible_ofFields ?_ (List.forall_mem_map.mpr fun e he => h e (hsub.subset he))
  rw [List.map_map]
  exact hkeys.sublist (hsub.map _)

end Record

end Criteria.Reader
