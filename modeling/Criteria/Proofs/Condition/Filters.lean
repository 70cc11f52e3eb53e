import Criteria.Filter
import Criteria.Proofs.Json.Reads

/-!
# Filters that are read back

Values, criteria and filters are read from their documents as they were. A value has no type
of its own in a document: it is found again because no two kinds of value look alike, except
for a number that is not finite, which has no written form.

## Main definitions

- `Value.Readable`: the numbers of a value read back as what they are
- `Filter.values`: the values of all criteria of a filter

## Main statements

- `Value.reads_toJson`, `Criterion.reads_toJson`, `Filter.reads_toJson`: what is written is
  read
-/

namespace Criteria

open Reader (Reads Entry)

variable {ω : Type}

namespace Value

mutual

/-- The integers of the value have 64 bits, and its other numbers are finite and read
back. -/
def Readable : Value → Prop
  | .int i => minInt64 ≤ i ∧ i ≤ maxInt64
  | .float x => x.isFinite = true ∧ (Number.double x).ReadsBack
  | .list items => AllReadable items
  | _ => True

def AllReadable : List Value → Prop
  | [] => True
  | item :: rest => item.Readable ∧ AllReadable rest

end

theorem toItems_eq_map (items : List Value) : toItems items = items.map toJson := by
  induction items with
  | nil => rfl
  | cons item rest ih => rw [toItems, ih, List.map_cons]

theorem readItems_eq (depth : Nat) (trees : List Tree) :
    (readItems depth trees : Logged ω Mismatch (List Value)) = Reader.items reader depth trees := by
  induction trees with
  | nil => rfl
  | cons tree rest ih =>
    rw [readItems, Reader.items, ih]
    rfl

theorem outcome_read_array (depth : Nat) (trees : List Tree) :
    (read depth (.array trees) : Logged ω Mismatch Value).outcome =
      (Reader.list reader depth (.array trees) : Logged ω Mismatch (List Value)).outcome.map
        .list := by
  cases depth with
  | zero => rfl
  | succ depth => rw [read, readItems_eq, Logged.outcome_bind_pure, Reader.list]

mutual

theorem legible_toJson (v : Value) (h : v.Readable) : v.toJson.Legible := by
  cases v with
  | int i =>
    rw [Readable] at h
    have hmax : maxInt64 ≤ maxUInt64 := by decide
    rw [toJson, Json.ofInt, Json.Legible]
    exact Number.readsBack_int h.1 (Int.le_trans h.2 hmax)
  | float x =>
    rw [Readable] at h
    rw [toJson, Json.ofDouble, if_pos h.1, Json.Legible]
    exact h.2
  | list items =>
    rw [Readable] at h
    rw [toJson, Json.Legible]
    exact allLegible_toItems items h
  | _ => trivial

theorem allLegible_toItems (items : List Value) (h : AllReadable items) :
    Json.AllLegible (toItems items) := by
  match items with
  | [] => trivial
  | item :: rest =>
    rw [AllReadable] at h
    rw [toItems, Json.AllLegible]
    exact ⟨legible_toJson item h.1, allLegible_toItems rest h.2⟩

end

mutual

/-- A value is read from its document. -/
theorem reads_toJson (v : Value) (h : v.Readable) : Reads ω reader v.toJson v := by
  intro depth j hj hdepth
  cases v with
  | int i =>
    rw [Readable] at h
    rw [toJson, Json.ofInt, Json.Rearranged] at hj
    subst hj
    rw [Tree.ofJson, reader, read, ofNumber, if_pos h.2]
    rfl
  | float x =>
    rw [Readable] at h
    rw [toJson, Json.ofDouble, if_pos h.1, Json.Rearranged] at hj
    subst hj
    rw [Tree.ofJson, reader, read]
    rfl
  | list items =>
    rw [Readable] at h
    rw [toJson, toItems_eq_map] at hj
    have hitems : ∀ v ∈ items, Reads ω reader v.toJson (id v) := reads_all items h
    have hlist := Reader.reads_list hitems hj hdepth
    rw [Json.Rearranged] at hj
    obtain ⟨items', -, rfl⟩ := hj
    rw [Tree.ofJson] at hlist
    rw [Tree.ofJson, reader, outcome_read_array, hlist, List.map_id]
    rfl
  | _ =>
    rw [toJson, Json.Rearranged] at hj
    subst hj
    rw [Tree.ofJson, reader, read]
    rfl

theorem reads_all (items : List Value) (h : AllReadable items) :
    ∀ v ∈ items, Reads ω reader v.toJson v := by
  match items with
  | [] => exact fun v hv => absurd hv List.not_mem_nil
  | item :: rest =>
    rw [AllReadable] at h
    rw [List.forall_mem_cons]
    exact ⟨reads_toJson item h.1, reads_all rest h.2⟩

end

end Value

theorem Operator.ofName?_name (op : Operator) : ofName? op.name = some op := by
  cases op <;> decide

namespace Criterion

/-- The fields of the document of a criterion. -/
def entries (c : Criterion) : List (Entry Draft) :=
  [⟨"path", .text c.path, fun d => { d with path := c.path }⟩,
   ⟨"value", c.value.toJson, fun d => { d with value := c.value }⟩,
   ⟨"operator", .text c.operator.name, fun d => { d with operator := c.operator }⟩]

/-- A criterion is read from its document. -/
theorem reads_toJson (c : Criterion) (h : c.value.Readable) :
    Reads ω reader c.toJson c := by
  have hread : ∀ e ∈ c.entries, e.ReadBy ω fieldNames readField := by
    rw [entries]
    simp only [List.forall_mem_cons, List.not_mem_nil, false_implies, implies_true, and_true]
    refine ⟨?_, ?_, ?_⟩
    · exact Entry.readBy_mk 0 (by decide) ((Reader.reads_text c.path).map _)
    · exact Entry.readBy_mk 1 (by decide) ((Value.reads_toJson c.value h).map _)
    · exact Entry.readBy_mk 2 (by decide)
        ((Reader.reads_case (Operator.ofName?_name c.operator)).map _)
  have hkeys : c.entries.map Entry.key = ["path", "value", "operator"] := rfl
  have hrecord := Reader.reads_record (.refl c.entries) hread (by rw [hkeys]; decide)
    (by simp [entries]) {}
  intro depth j hj hdepth
  rw [reader, Logged.outcome_bind, hrecord hj hdepth]
  rfl

theorem legible_toJson (c : Criterion) (h : c.value.Readable) : c.toJson.Legible := by
  refine Json.legible_ofFields (by simp) ?_
  simpa [Json.Legible] using Value.legible_toJson c.value h

end Criterion

namespace Filter

/-- The values of all criteria, at every depth. -/
def values : Filter → List Value
  | ⟨criteria, none⟩ => criteria.map Criterion.value
  | ⟨criteria, some group⟩ => criteria.map Criterion.value ++ values group

/-- Reads the field with the given number into a filter. -/
def readField : Nat → Reader ω (Filter → Filter)
  | 0, depth, tree => do
    let criteria ← Reader.list Criterion.reader depth tree
    return fun f => { f with criteria }
  | _, depth, tree => do
    let orGroup ← Reader.optional reader depth tree
    return fun f => { f with orGroup }

/-- A filter is read as a record, at every depth. -/
theorem read_eq (depth : Nat) (tree : Tree) :
    (read depth tree : Logged ω Mismatch Filter) =
      Reader.record fieldNames readField {} depth tree := by
  cases depth with
  | zero =>
    rw [read]
    exact Reader.record_congr fun inner hinner => absurd hinner (Nat.succ_ne_zero inner)
  | succ depth =>
    rw [read]
    refine Reader.record_congr fun inner hinner i part => ?_
    obtain rfl : inner = depth := by omega
    cases i with
    | zero => rfl
    | succ i => cases part <;> rfl

/-- The field that holds the criteria. -/
def criteriaEntry (criteria : List Criterion) : Entry Filter :=
  ⟨"parameters", .array (criteria.map Criterion.toJson), fun f => { f with criteria }⟩

/-- The field that holds the group of alternatives. -/
def groupEntry (group : Filter) : Entry Filter :=
  ⟨"or_group", group.toJson, fun f => { f with orGroup := group }⟩

theorem readBy_criteriaEntry {criteria : List Criterion}
    (h : ∀ v ∈ criteria.map Criterion.value, v.Readable) :
    (criteriaEntry criteria).ReadBy ω fieldNames readField := by
  have hcriteria : ∀ c ∈ criteria, Reads ω Criterion.reader c.toJson (id c) :=
    fun c hc => c.reads_toJson (h c.value (List.mem_map_of_mem hc))
  have hlist := Reader.reads_list hcriteria
  rw [List.map_id] at hlist
  exact Entry.readBy_mk 0 (by decide) (hlist.map _)

theorem readBy_groupEntry {group : Filter}
    (h : Reads ω reader group.toJson group) :
    (groupEntry group).ReadBy ω fieldNames readField := by
  have hobject : ∃ fields, group.toJson = .object fields := by
    match group with
    | ⟨_, none⟩ => exact ⟨_, rfl⟩
    | ⟨_, some _⟩ => exact ⟨_, rfl⟩
  obtain ⟨fields, hfields⟩ := hobject
  refine Entry.readBy_mk 1 (by decide) (Reads.map ?_ _)
  rw [hfields] at h ⊢
  exact Reader.reads_optional h

/-- A filter is read from its document. -/
theorem reads_toJson (f : Filter) (h : ∀ v ∈ f.values, v.Readable) :
    Reads ω reader f.toJson f := by
  match f with
  | ⟨criteria, none⟩ =>
    rw [values] at h
    have hread : ∀ e ∈ [criteriaEntry criteria], e.ReadBy ω fieldNames readField := by
      simpa using readBy_criteriaEntry h
    have hkeys : [criteriaEntry criteria].map Entry.key = ["parameters"] := rfl
    have hrecord := Reader.reads_record (.refl _) hread (by rw [hkeys]; decide) (by simp) {}
    intro depth j hj hdepth
    rw [reader, read_eq]
    exact hrecord hj hdepth
  | ⟨criteria, some group⟩ =>
    rw [values, List.forall_mem_append] at h
    have hgroup : (groupEntry group).ReadBy ω fieldNames readField :=
      readBy_groupEntry (reads_toJson group h.2)
    have hread : ∀ e ∈ [criteriaEntry criteria, groupEntry group],
        e.ReadBy ω fieldNames readField := by
      simpa using ⟨readBy_criteriaEntry h.1, hgroup⟩
    have hkeys : [criteriaEntry criteria, groupEntry group].map Entry.key =
        ["parameters", "or_group"] := rfl
    have hrecord := Reader.reads_record (.refl _) hread (by rw [hkeys]; decide)
      (by simp [criteriaEntry, groupEntry]) {}
    intro depth j hj hdepth
    rw [reader, read_eq]
    exact hrecord hj hdepth

theorem legible_criteria {criteria : List Criterion}
    (h : ∀ v ∈ criteria.map Criterion.value, v.Readable) :
    (Json.array (criteria.map Criterion.toJson)).Legible := by
  rw [Json.Legible, Json.allLegible_iff, List.forall_mem_map]
  exact fun c hc => c.legible_toJson (h c.value (List.mem_map_of_mem hc))

theorem legible_toJson (f : Filter) (h : ∀ v ∈ f.values, v.Readable) : f.toJson.Legible := by
  match f with
  | ⟨criteria, none⟩ =>
    rw [values] at h
    refine Json.legible_ofFields (by simp) ?_
    simpa using legible_criteria h
  | ⟨criteria, some group⟩ =>
    rw [values, List.forall_mem_append] at h
    refine Json.legible_ofFields (by simp) ?_
    simpa using ⟨legible_criteria h.1, legible_toJson group h.2⟩

end Filter

end Criteria
