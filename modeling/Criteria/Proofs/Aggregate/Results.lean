import Criteria.Aggregate
import Criteria.Proofs.Json.SortedFields

/-!
# The results of several aggregates

Several aggregates over the same rows fail with the first of them that fails. Otherwise their
values stand in one row, at the labels of the aggregates. Labels do not tell all aggregates apart:
the path is written with underscores, which are also what the name of a kind is written with.

## Main definitions

- `AggregateKind.stem`, `Aggregate.flatField`: the parts of a label
- `Aggregate.Shadows`, `Aggregate.Collides`: aggregates that only a title tells apart

## Main statements

- `aggregateAll_eq_error_iff`, `aggregateAll_eq_ok_iff`: the outcome of several aggregates
- `exists_detail_of_aggregateAll`: the kind of their errors
- `Aggregate.label_eq_label_iff`: without titles, aggregates that collide have the same label
- `aggregateAll_keyed`: which aggregates have their values in the row
-/

namespace Criteria

section Sequence

variable {ε α β : Type} {f : α → Except ε β} {a : α} {as : List α} {e : ε}

theorem except_map_eq_error_iff {x : Except ε α} {g : α → β} :
    x.map g = .error e ↔ x = .error e := by
  cases x <;> simp [Except.map]

theorem except_map_eq_ok_iff {x : Except ε α} {g : α → β} {b : β} :
    x.map g = .ok b ↔ ∃ a, x = .ok a ∧ g a = b := by
  cases x <;> simp [Except.map]

theorem mapM_cons_of_error (h : f a = .error e) : (a :: as).mapM f = .error e := by
  rw [List.mapM_cons, h]
  rfl

theorem mapM_cons_of_ok {b : β} (h : f a = .ok b) :
    (a :: as).mapM f = (as.mapM f).map (b :: ·) := by
  rw [List.mapM_cons, h]
  cases as.mapM f <;> rfl

theorem mapM_eq_ok_of_forall {g : α → β} (h : ∀ a ∈ as, f a = .ok (g a)) :
    as.mapM f = .ok (as.map g) := by
  induction as with
  | nil => rfl
  | cons first rest ih =>
    obtain ⟨hfirst, hrest⟩ := List.forall_mem_cons.mp h
    rw [mapM_cons_of_ok hfirst, ih hrest]
    rfl

theorem forall_exists_of_mapM_eq_ok {bs : List β} (h : as.mapM f = .ok bs) :
    ∀ a ∈ as, ∃ b, f a = .ok b := by
  induction as generalizing bs with
  | nil => nofun
  | cons first rest ih =>
    cases hfirst : f first with
    | error e =>
      rw [mapM_cons_of_error hfirst] at h
      cases h
    | ok b =>
      rw [mapM_cons_of_ok hfirst, except_map_eq_ok_iff] at h
      obtain ⟨bs, hrest, -⟩ := h
      exact List.forall_mem_cons.mpr ⟨⟨b, hfirst⟩, ih hrest⟩

/-- The first failure is the failure of all. -/
theorem mapM_eq_error_iff : as.mapM f = .error e ↔
    ∃ before a after, as = before ++ a :: after ∧ (∀ b ∈ before, ∃ v, f b = .ok v) ∧
      f a = .error e := by
  constructor
  · intro h
    induction as with
    | nil => cases h
    | cons first rest ih =>
      cases hfirst : f first with
      | error e' =>
        rw [mapM_cons_of_error hfirst] at h
        exact ⟨[], first, rest, rfl, nofun, hfirst.trans (congrArg _ (Except.error.inj h))⟩
      | ok b =>
        rw [mapM_cons_of_ok hfirst, except_map_eq_error_iff] at h
        obtain ⟨before, a, after, rfl, hbefore, ha⟩ := ih h
        exact ⟨first :: before, a, after, rfl,
          List.forall_mem_cons.mpr ⟨⟨b, hfirst⟩, hbefore⟩, ha⟩
  · rintro ⟨before, a, after, rfl, hbefore, ha⟩
    induction before with
    | nil => exact mapM_cons_of_error ha
    | cons first rest ih =>
      obtain ⟨⟨b, hfirst⟩, hrest⟩ := List.forall_mem_cons.mp hbefore
      rw [List.cons_append, mapM_cons_of_ok hfirst, ih hrest]
      rfl

theorem exists_of_mapM_eq_error (h : as.mapM f = .error e) : ∃ a ∈ as, f a = .error e := by
  obtain ⟨before, a, after, rfl, -, ha⟩ := mapM_eq_error_iff.mp h
  exact ⟨a, List.mem_append_right before List.mem_cons_self, ha⟩

end Sequence

namespace Aggregate

variable {rows : List Json} {a : Aggregate} {e : QueryError}

theorem exists_detail_of_numbers (h : a.numbers rows = .error e) :
    ∃ detail, e = .invalidAggregate detail := by
  obtain ⟨v, -, hv⟩ := exists_of_mapM_eq_error h
  cases v <;> cases hv <;> exact ⟨_, rfl⟩

theorem exists_detail_of_eval (h : a.eval rows = .error e) :
    ∃ detail, e = .invalidAggregate detail := by
  cases hkind : a.kind <;> rw [eval, hkind] at h
  case sum | avg => exact exists_detail_of_numbers (except_map_eq_error_iff.mp h)
  all_goals cases h

/-- The value of an aggregate with its label. -/
def entry (rows : List Json) (a : Aggregate) : Except QueryError (String × Json) :=
  (a.eval rows).map (a.label, ·)

theorem entry_eq_error_iff : a.entry rows = .error e ↔ a.eval rows = .error e :=
  except_map_eq_error_iff

theorem exists_entry_eq_ok_iff :
    (∃ field, a.entry rows = .ok field) ↔ ∃ v, a.eval rows = .ok v := by
  constructor
  · rintro ⟨field, h⟩
    obtain ⟨v, hv, -⟩ := except_map_eq_ok_iff.mp h
    exact ⟨v, hv⟩
  · rintro ⟨v, hv⟩
    exact ⟨(a.label, v), except_map_eq_ok_iff.mpr ⟨v, hv, rfl⟩⟩

end Aggregate

section Rows

variable {rows : List Json} {aggregates : List Aggregate}

theorem aggregateAll_eq (rows : List Json) (aggregates : List Aggregate) :
    aggregateAll rows aggregates = (aggregates.mapM (Aggregate.entry rows)).map Json.sortFields :=
  rfl

theorem aggregateAll_eq_error_iff {e : QueryError} : aggregateAll rows aggregates = .error e ↔
    ∃ before a after, aggregates = before ++ a :: after ∧
      (∀ b ∈ before, ∃ v, b.eval rows = .ok v) ∧ a.eval rows = .error e := by
  simp only [aggregateAll_eq, except_map_eq_error_iff, mapM_eq_error_iff,
    Aggregate.exists_entry_eq_ok_iff, Aggregate.entry_eq_error_iff]

theorem exists_detail_of_aggregateAll {e : QueryError}
    (h : aggregateAll rows aggregates = .error e) : ∃ detail, e = .invalidAggregate detail := by
  obtain ⟨before, a, after, -, -, ha⟩ := aggregateAll_eq_error_iff.mp h
  exact Aggregate.exists_detail_of_eval ha

theorem aggregateAll_eq_ok_of_forall {value : Aggregate → Json}
    (h : ∀ a ∈ aggregates, a.eval rows = .ok (value a)) :
    aggregateAll rows aggregates =
      .ok (Json.sortFields (aggregates.map fun a => (a.label, value a))) := by
  have hentry : ∀ a ∈ aggregates, a.entry rows = .ok (a.label, value a) :=
    fun a ha => except_map_eq_ok_iff.mpr ⟨value a, h a ha, rfl⟩
  rw [aggregateAll_eq, mapM_eq_ok_of_forall hentry]
  rfl

theorem aggregateAll_eq_ok_iff {row : List (String × Json)} :
    aggregateAll rows aggregates = .ok row ↔
      ∃ value : Aggregate → Json, (∀ a ∈ aggregates, a.eval rows = .ok (value a)) ∧
        row = Json.sortFields (aggregates.map fun a => (a.label, value a)) := by
  constructor
  · intro h
    obtain ⟨fields, hfields, -⟩ := except_map_eq_ok_iff.mp h
    have hvalues : ∀ a ∈ aggregates, ∃ v, a.eval rows = .ok v := fun a ha =>
      Aggregate.exists_entry_eq_ok_iff.mp (forall_exists_of_mapM_eq_ok hfields a ha)
    choose! value hvalue using hvalues
    rw [aggregateAll_eq_ok_of_forall hvalue] at h
    exact ⟨value, hvalue, (Except.ok.inj h).symm⟩
  · rintro ⟨value, hvalue, rfl⟩
    exact aggregateAll_eq_ok_of_forall hvalue

theorem exists_aggregateAll_eq_ok_iff : (∃ row, aggregateAll rows aggregates = .ok row) ↔
    ∀ a ∈ aggregates, ∃ v, a.eval rows = .ok v := by
  constructor
  · rintro ⟨row, hrow⟩ a ha
    obtain ⟨value, hvalue, -⟩ := aggregateAll_eq_ok_iff.mp hrow
    exact ⟨value a, hvalue a ha⟩
  · intro h
    choose! value hvalue using h
    exact ⟨_, aggregateAll_eq_ok_of_forall hvalue⟩

variable {row : List (String × Json)}

theorem keys_labelled (value : Aggregate → Json) (aggregates : List Aggregate) :
    (aggregates.map fun a => (a.label, value a)).map Prod.fst =
      aggregates.map Aggregate.label := by
  rw [List.map_map]
  rfl

theorem pairwise_keys_of_aggregateAll (h : aggregateAll rows aggregates = .ok row) :
    (row.map Prod.fst).Pairwise (· < ·) := by
  obtain ⟨value, -, rfl⟩ := aggregateAll_eq_ok_iff.mp h
  exact Json.pairwise_sortFields _

theorem mem_keys_of_aggregateAll (h : aggregateAll rows aggregates = .ok row) {label : String} :
    label ∈ row.map Prod.fst ↔ label ∈ aggregates.map Aggregate.label := by
  obtain ⟨value, -, rfl⟩ := aggregateAll_eq_ok_iff.mp h
  rw [Json.mem_keys_sortFields, keys_labelled]

theorem length_of_aggregateAll (h : aggregateAll rows aggregates = .ok row) :
    row.length = aggregates.length ↔ (aggregates.map Aggregate.label).Nodup := by
  obtain ⟨value, -, rfl⟩ := aggregateAll_eq_ok_iff.mp h
  rw [← keys_labelled value, ← Json.length_sortFields_eq_iff, List.length_map]

/-- Of the aggregates with one label the last stays. -/
theorem exists_lookup?_of_aggregateAll {before after : List Aggregate} {a : Aggregate}
    (h : aggregateAll rows (before ++ a :: after) = .ok row)
    (hlast : a.label ∉ after.map Aggregate.label) :
    ∃ v, a.eval rows = .ok v ∧ Json.lookup? a.label row = some v := by
  obtain ⟨value, hvalue, rfl⟩ := aggregateAll_eq_ok_iff.mp h
  refine ⟨value a, hvalue a (List.mem_append_right _ List.mem_cons_self), ?_⟩
  rw [List.map_append, List.map_cons]
  exact Json.lookup?_sortFields_of_not_mem (keys_labelled value after ▸ hlast)

end Rows

namespace AggregateKind

/-- The part of a label that stands for the kind. -/
def stem (k : AggregateKind) : String :=
  k.name.map Char.toLower ++ "_"

theorem stem_prefix_iff {k l : AggregateKind} :
    k.stem.toList <+: l.stem.toList ↔ k = l ∨ k = .count ∧ l = .countDistinct := by
  cases k <;> cases l <;> decide +kernel

/-- The stem of a count is the only one that another one begins with. -/
theorem stem_eq_append_iff {k l : AggregateKind} {t : List Char} :
    l.stem.toList = k.stem.toList ++ t ↔
      k = l ∧ t = [] ∨ k = .count ∧ l = .countDistinct ∧ t = "distinct_".toList := by
  have hdistinct : countDistinct.stem.toList = count.stem.toList ++ "distinct_".toList := by
    decide +kernel
  constructor
  · intro h
    rcases stem_prefix_iff.mp ⟨t, h.symm⟩ with rfl | ⟨rfl, rfl⟩
    · exact .inl ⟨rfl, List.self_eq_append_right.mp h⟩
    · exact .inr ⟨rfl, rfl, (List.append_cancel_left (hdistinct.symm.trans h)).symm⟩
  · rintro (⟨rfl, rfl⟩ | ⟨rfl, rfl, rfl⟩)
    · exact (List.append_nil _).symm
    · exact hdistinct

end AggregateKind

namespace Aggregate

/-- The path with underscores for dots. -/
def flatField (a : Aggregate) : String :=
  a.field.map fun c => if c = '.' then '_' else c

/-- The label of the one aggregate, a count, reads like that of the other one, a count of different
values: its path begins with the rest of the name of that kind. -/
def Shadows (a b : Aggregate) : Prop :=
  a.kind = .count ∧ b.kind = .countDistinct ∧ a.flatField = "distinct_" ++ b.flatField

/-- Only a title could tell the aggregates apart. -/
def Collides (a b : Aggregate) : Prop :=
  a.kind = b.kind ∧ a.flatField = b.flatField ∨ a.Shadows b ∨ b.Shadows a

instance (a b : Aggregate) : Decidable (a.Shadows b) :=
  inferInstanceAs (Decidable (_ ∧ _ ∧ _))

instance (a b : Aggregate) : Decidable (a.Collides b) :=
  inferInstanceAs (Decidable (_ ∨ _ ∨ _))

variable {a b : Aggregate}

theorem label_eq (h : a.title = none) : a.label = a.kind.stem ++ a.flatField := by
  rw [label, h]
  rfl

theorem exists_stem_append_iff :
    (∃ t, b.kind.stem.toList = a.kind.stem.toList ++ t ∧
      a.flatField.toList = t ++ b.flatField.toList) ↔
    a.kind = b.kind ∧ a.flatField = b.flatField ∨ a.Shadows b := by
  simp only [AggregateKind.stem_eq_append_iff, Shadows, ← String.toList_inj, String.toList_append]
  constructor
  · rintro ⟨t, ⟨hkind, rfl⟩ | ⟨ha, hb, rfl⟩, hfield⟩
    · exact .inl ⟨hkind, hfield⟩
    · exact .inr ⟨ha, hb, hfield⟩
  · rintro (⟨hkind, hfield⟩ | ⟨ha, hb, hfield⟩)
    · exact ⟨[], .inl ⟨hkind, rfl⟩, hfield⟩
    · exact ⟨_, .inr ⟨ha, hb, rfl⟩, hfield⟩

/-- One of two labels that are equal has the longer stem, or they have the same one. -/
theorem label_eq_label_iff (ha : a.title = none) (hb : b.title = none) :
    a.label = b.label ↔ a.Collides b := by
  rw [label_eq ha, label_eq hb, ← String.toList_inj, String.toList_append, String.toList_append,
    List.append_eq_append_iff, exists_stem_append_iff, exists_stem_append_iff, Collides,
    eq_comm (a := b.kind), eq_comm (a := b.flatField)]
  exact or_or_distrib_left.symm

theorem nodup_labels_iff {aggregates : List Aggregate} (h : ∀ a ∈ aggregates, a.title = none) :
    (aggregates.map label).Nodup ↔ aggregates.Pairwise fun a b => ¬ a.Collides b := by
  rw [List.Nodup, List.pairwise_map]
  exact List.Pairwise.iff_of_mem fun ha hb => not_congr (label_eq_label_iff (h _ ha) (h _ hb))

end Aggregate

/-- Several aggregates over the same rows stand in one row, at their labels.

1. They fail if and only if one of them does, with the error of the first that fails. So there is
   a row if and only if each of them has a value.
2. The row has each label once, in increasing order of the labels. At a label is the value of the
   last aggregate that has it.
3. No aggregate is lost if and only if their labels are pairwise different. Then each of them has
   its own value at its label. Without titles, the labels are pairwise different if and only if no
   two of the aggregates collide: none are of one kind over paths that differ at most in dots and
   underscores, and no count has a label that reads like that of a count of different values. -/
theorem aggregateAll_keyed (rows : List Json) (aggregates : List Aggregate) :
    (∀ e, aggregateAll rows aggregates = .error e ↔
      ∃ before a after, aggregates = before ++ a :: after ∧
        (∀ b ∈ before, ∃ v, b.eval rows = .ok v) ∧ a.eval rows = .error e) ∧
    ((∃ row, aggregateAll rows aggregates = .ok row) ↔
      ∀ a ∈ aggregates, ∃ v, a.eval rows = .ok v) ∧
    (∀ row, aggregateAll rows aggregates = .ok row →
      (row.map Prod.fst).Pairwise (· < ·) ∧
      (∀ label, label ∈ row.map Prod.fst ↔ label ∈ aggregates.map Aggregate.label) ∧
      (∀ before a after, aggregates = before ++ a :: after →
        a.label ∉ after.map Aggregate.label →
        ∃ v, a.eval rows = .ok v ∧ Json.lookup? a.label row = some v) ∧
      (row.length = aggregates.length ↔ (aggregates.map Aggregate.label).Nodup) ∧
      ((aggregates.map Aggregate.label).Nodup → ∀ a ∈ aggregates,
        ∃ v, a.eval rows = .ok v ∧ Json.lookup? a.label row = some v)) ∧
    ((∀ a ∈ aggregates, a.title = none) →
      ((aggregates.map Aggregate.label).Nodup ↔
        aggregates.Pairwise fun a b => ¬ a.Collides b)) := by
  refine ⟨fun e => aggregateAll_eq_error_iff, exists_aggregateAll_eq_ok_iff, fun row hrow =>
    ⟨pairwise_keys_of_aggregateAll hrow, fun label => mem_keys_of_aggregateAll hrow, ?_,
      length_of_aggregateAll hrow, fun hnodup a ha => ?_⟩, Aggregate.nodup_labels_iff⟩
  · rintro before a after rfl hlast
    exact exists_lookup?_of_aggregateAll hrow hlast
  · obtain ⟨before, after, rfl⟩ := List.append_of_mem ha
    rw [List.map_append, List.map_cons] at hnodup
    exact exists_lookup?_of_aggregateAll hrow (List.nodup_cons.mp hnodup.of_append_right).1

/-- A post that has the age of its author twice, in an object and in a field of its own. -/
def authoredPost : Json :=
  .object [("author", .object [("age", .ofInt 30)]), ("author_age", .ofInt 31)]

/-- The greatest age at the one path and the least age at the other have labels of their own. A sum
over objects fails, wherever it stands among the aggregates. -/
theorem aggregateAll_keyed_authored :
    let greatest : Aggregate := { field := "author.age", kind := .max }
    let least : Aggregate := { field := "author_age", kind := .min }
    let total : Aggregate := { field := "author", kind := .sum }
    (∃ row, aggregateAll [authoredPost] [greatest, least] = .ok row ∧ row.length = 2 ∧
      Json.lookup? greatest.label row = some (.ofInt 30) ∧
      Json.lookup? least.label row = some (.ofInt 31)) ∧
    aggregateAll [authoredPost] [greatest, total, least] =
      .error (.invalidAggregate
        "SUM over 'author' found non-numeric value \x7b\"age\":30\x7d") := by
  intro greatest least total
  have hgreatest : greatest.eval [authoredPost] = .ok (.ofInt 30) := by cbv
  have hleast : least.eval [authoredPost] = .ok (.ofInt 31) := by cbv
  have htotal : total.eval [authoredPost] = .error (.invalidAggregate
      "SUM over 'author' found non-numeric value \x7b\"age\":30\x7d") := by cbv
  obtain ⟨-, hsuccess, hrow, hlabels⟩ := aggregateAll_keyed [authoredPost] [greatest, least]
  obtain ⟨herror, -⟩ := aggregateAll_keyed [authoredPost] [greatest, total, least]
  have hnodup : ([greatest, least].map Aggregate.label).Nodup :=
    (hlabels (by decide)).mpr (by decide +kernel)
  obtain ⟨row, h⟩ := hsuccess.mpr (by
    rintro a (_ | ⟨_, _ | ⟨_, ⟨⟩⟩⟩)
    · exact ⟨_, hgreatest⟩
    · exact ⟨_, hleast⟩)
  obtain ⟨-, -, -, hlength, hvalues⟩ := hrow row h
  refine ⟨⟨row, h, hlength.mpr hnodup, ?_, ?_⟩, (herror _).mpr ?_⟩
  · obtain ⟨v, hv, hlookup⟩ := hvalues hnodup greatest List.mem_cons_self
    rw [hlookup, ← Except.ok.inj (hgreatest.symm.trans hv)]
  · obtain ⟨v, hv, hlookup⟩ := hvalues hnodup least (List.mem_cons_of_mem _ List.mem_cons_self)
    rw [hlookup, ← Except.ok.inj (hleast.symm.trans hv)]
  · exact ⟨[greatest], total, [least], rfl, List.forall_mem_singleton.mpr ⟨_, hgreatest⟩, htotal⟩

/-- Of four different aggregates without titles, each with a value of its own, two are lost. -/
theorem aggregateAll_loses_collisions :
    let nested : Aggregate := { field := "author.age", kind := .max }
    let flat : Aggregate := { field := "author_age", kind := .max }
    let count : Aggregate := { field := "distinct_author", kind := .count }
    let different : Aggregate := { field := "author", kind := .countDistinct }
    [nested, flat, count, different].Nodup ∧
      nested.eval [authoredPost] = .ok (.ofInt 30) ∧ flat.eval [authoredPost] = .ok (.ofInt 31) ∧
      count.eval [authoredPost] = .ok (.ofNat 0) ∧
      different.eval [authoredPost] = .ok (.ofNat 1) ∧
      aggregateAll [authoredPost] [nested, flat, count, different] =
        .ok [("count_distinct_author", .ofNat 1), ("max_author_age", .ofInt 31)] := by
  intro nested flat count different
  have hnested : nested.eval [authoredPost] = .ok (.ofInt 30) := by cbv
  have hflat : flat.eval [authoredPost] = .ok (.ofInt 31) := by cbv
  have hcount : count.eval [authoredPost] = .ok (.ofNat 0) := by cbv
  have hdifferent : different.eval [authoredPost] = .ok (.ofNat 1) := by cbv
  have hnestedLabel : nested.label = "max_author_age" := by decide +kernel
  have hflatLabel : flat.label = "max_author_age" := by decide +kernel
  have hcountLabel : count.label = "count_distinct_author" := by decide +kernel
  have hdifferentLabel : different.label = "count_distinct_author" := by decide +kernel
  refine ⟨by decide, hnested, hflat, hcount, hdifferent, ?_⟩
  simp only [aggregateAll, List.mapM_cons, List.mapM_nil, hnested, hflat, hcount, hdifferent,
    hnestedLabel, hflatLabel, hcountLabel, hdifferentLabel]
  rfl

end Criteria
