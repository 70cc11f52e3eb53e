import Criteria.Aggregate
import Criteria.Proofs.Sorting.Documents
import Mathlib.Data.List.Induction
import Mathlib.Data.List.TakeWhile

/-!
# Least and greatest values

The least and the greatest of several values are found in one pass, which keeps the first of the
least ones and the last of the greatest ones. These are the ends of the sorted list: a new value is
sorted behind those that it ties with, so it comes last if no earlier one is greater, and first if
it is less than all earlier ones.

## Main definitions

- `Aggregate.pick`: one step of the pass
- `Json.keyCmp`: the order of values by their keys

## Main statements

- `IsStableSort.exists_insert`: where one more element has its place
- `IsStableSort.filterMap`: sorted documents have sorted values
- `IsStableSort.head?_eq`, `IsStableSort.getLast?_eq`: the pass finds the ends of the sorted list
- `Aggregate.extremes_sorted`: the least and the greatest value of an attribute
-/

namespace Criteria

section Pick

variable {α : Type} {cmp cmp' : α → α → Ordering} {replaces : Ordering → Bool}

/-- One step in the search for an extreme value: the next value takes the place of the best one so
far if their order is one that asks for it. -/
def Aggregate.pick (replaces : Ordering → Bool) (cmp : α → α → Ordering) : Option α → α → Option α
  | none, next => some next
  | some best, next => some (if replaces (cmp best next) then next else best)

namespace Aggregate

theorem mem_of_foldl_pick {list : List α} {best : α}
    (h : list.foldl (pick replaces cmp) none = some best) : best ∈ list := by
  induction list using List.reverseRecOn generalizing best with
  | nil => cases h
  | append_singleton list next ih =>
    rw [List.foldl_append, List.foldl_cons, List.foldl_nil] at h
    cases hbest : list.foldl (pick replaces cmp) none with
    | none =>
      rw [hbest] at h
      simp [← Option.some.inj h]
    | some earlier =>
      rw [hbest] at h
      have hpicked : (if replaces (cmp earlier next) then next else earlier) = best :=
        Option.some.inj h
      split at hpicked
      · simp [← hpicked]
      · exact List.mem_append_left _ (hpicked ▸ ih hbest)

/-- The search compares members of the list with each other only. -/
theorem foldl_pick_congr {list : List α} (h : ∀ a ∈ list, ∀ b ∈ list, cmp a b = cmp' a b) :
    list.foldl (pick replaces cmp) none = list.foldl (pick replaces cmp') none := by
  induction list using List.reverseRecOn with
  | nil => rfl
  | append_singleton list next ih =>
    have hlist := ih fun a ha b hb => h a (List.mem_append_left _ ha) b (List.mem_append_left _ hb)
    rw [List.foldl_append, List.foldl_append, hlist]
    cases hbest : list.foldl (pick replaces cmp') none with
    | none => rfl
    | some best =>
      have hsame := h best (List.mem_append_left _ (mem_of_foldl_pick hbest)) next
        (List.mem_append_right _ List.mem_cons_self)
      simp only [List.foldl_cons, List.foldl_nil, pick, hsame]

end Aggregate

end Pick

namespace IsStableSort

section Ends

variable {α : Type} {cmp : α → α → Ordering} [Std.TransCmp cmp] {list sorted : List α}

/-- One more element has its place behind those that come before it or tie with it. -/
theorem exists_insert (h : IsStableSort cmp list sorted) (next : α) :
    ∃ before after, sorted = before ++ after ∧ (∀ a ∈ before, (cmp a next).isLE) ∧
      (∀ a ∈ after, cmp next a = .lt) ∧
      IsStableSort cmp (list ++ [next]) (before ++ next :: after) := by
  let fits (a : α) : Bool := (cmp a next).isLE
  have hsplit : sorted = sorted.takeWhile fits ++ sorted.dropWhile fits :=
    List.takeWhile_append_dropWhile.symm
  have hordered := h.ordered
  rw [hsplit, List.pairwise_append] at hordered
  obtain ⟨hbefore, hafter, hcross⟩ := hordered
  have hle (a : α) (ha : a ∈ sorted.takeWhile fits) : fits a = true := List.mem_takeWhile_imp ha
  -- the first element that does not fit is greater, and all others come behind that one
  have hlt (a : α) (ha : a ∈ sorted.dropWhile fits) : cmp next a = .lt := by
    cases hdrop : sorted.dropWhile fits with
    | nil =>
      rw [hdrop] at ha
      cases ha
    | cons first rest =>
      have hfirst : fits first = false := by
        have hhead := List.head_dropWhile_not fits (l := sorted) (by simp [hdrop])
        simpa [hdrop] using hhead
      have hgt : cmp first next = .gt := by
        cases hcmp : cmp first next <;> simp [fits, hcmp] at hfirst ⊢
      rw [hdrop] at ha hafter
      exact Std.TransCmp.lt_of_lt_of_isLE (Std.OrientedCmp.lt_of_gt hgt)
        (isLE_of_mem_cons hafter ha)
  refine ⟨_, _, hsplit, hle, hlt, ?_, fun a => ?_⟩
  · rw [List.pairwise_append, List.pairwise_cons]
    refine ⟨hbefore, ⟨fun a ha => ?_, hafter⟩, fun a ha b hb => ?_⟩
    · rw [hlt a ha]
      rfl
    · rcases List.mem_cons.mp hb with rfl | hb
      · exact hle a ha
      · exact hcross a ha b hb
  · have hkept := h.kept a
    rw [hsplit, List.filter_append] at hkept
    rw [List.filter_append, List.filter_append, ← hkept, List.append_assoc]
    congr 1
    by_cases hties : ties cmp a next = true
    · -- what ties with the new element is not behind it
      have hnone : (sorted.dropWhile fits).filter (ties cmp a) = [] := by
        refine List.filter_eq_nil_iff.mpr fun b hb htiesb => ?_
        have hlast : cmp next b = .eq := Std.TransCmp.eq_trans
          (Std.OrientedCmp.eq_symm (ties_iff.mp hties)) (ties_iff.mp htiesb)
        rw [hlt b hb] at hlast
        cases hlast
      rw [List.filter_cons_of_pos hties, hnone, List.nil_append, List.filter_cons_of_pos hties]
      rfl
    · rw [List.filter_cons_of_neg hties, List.filter_cons_of_neg hties, List.filter_nil,
        List.append_nil]

theorem eq_nil_of_nil (h : IsStableSort cmp [] sorted) : sorted = [] :=
  h.unique (isStableSort_self List.Pairwise.nil)

theorem mem_iff (h : IsStableSort cmp list sorted) {a : α} : a ∈ sorted ↔ a ∈ list :=
  ⟨mem_of_filter_eq (h.kept a), mem_of_filter_eq (h.kept a).symm⟩

theorem isLE_head (h : IsStableSort cmp list sorted) {first a : α}
    (hfirst : sorted.head? = some first) (ha : a ∈ list) : (cmp first a).isLE := by
  obtain ⟨rest, rfl⟩ := List.head?_eq_some_iff.mp hfirst
  exact isLE_of_mem_cons h.ordered (h.mem_iff.mpr ha)

theorem isLE_getLast (h : IsStableSort cmp list sorted) {last a : α}
    (hlast : sorted.getLast? = some last) (ha : a ∈ list) : (cmp a last).isLE := by
  obtain ⟨init, rfl⟩ := List.getLast?_eq_some_iff.mp hlast
  rcases List.mem_append.mp (h.mem_iff.mpr ha) with hinit | hlast
  · exact (List.pairwise_append.mp h.ordered).2.2 a hinit last List.mem_cons_self
  · obtain rfl := List.mem_singleton.mp hlast
    exact Std.ReflCmp.isLE_rfl

/-- The greatest elements end the sorted list, the last of them at the very end. -/
theorem getLast?_eq (h : IsStableSort cmp list sorted) :
    sorted.getLast? = list.foldl (Aggregate.pick (· != .gt) cmp) none := by
  induction list using List.reverseRecOn generalizing sorted with
  | nil =>
    rw [h.eq_nil_of_nil]
    rfl
  | append_singleton list next ih =>
    have hlist : IsStableSort cmp list (list.mergeSort fun a b => (cmp a b).isLE) :=
      isStableSort_mergeSort list
    obtain ⟨before, after, hsplit, hle, hlt, hinsert⟩ := hlist.exists_insert next
    have hlast := ih hlist
    rw [h.unique hinsert, List.foldl_append, ← hlast, hsplit, List.foldl_cons, List.foldl_nil]
    rcases List.eq_nil_or_concat after with rfl | ⟨init, last, rfl⟩
    · rw [List.append_nil, List.getLast?_concat]
      cases hbest : before.getLast? with
      | none => rfl
      | some best =>
        have hbest := hle best (List.mem_of_getLast? hbest)
        rw [Aggregate.pick, if_pos (by simpa [bne_iff_ne] using Ordering.isLE_iff_ne_gt.mp hbest)]
    · have hgt : cmp last next = .gt :=
        Std.OrientedCmp.gt_of_lt (hlt last (by simp))
      rw [List.concat_eq_append, ← List.cons_append, ← List.append_assoc, ← List.append_assoc,
        List.getLast?_concat, List.getLast?_concat, Aggregate.pick, hgt]
      rfl

/-- The least elements begin the sorted list, the first of them at the very front. -/
theorem head?_eq (h : IsStableSort cmp list sorted) :
    sorted.head? = list.foldl (Aggregate.pick (· == .gt) cmp) none := by
  induction list using List.reverseRecOn generalizing sorted with
  | nil =>
    rw [h.eq_nil_of_nil]
    rfl
  | append_singleton list next ih =>
    have hlist : IsStableSort cmp list (list.mergeSort fun a b => (cmp a b).isLE) :=
      isStableSort_mergeSort list
    obtain ⟨before, after, hsplit, hle, hlt, hinsert⟩ := hlist.exists_insert next
    have hfirst := ih hlist
    rw [h.unique hinsert, List.foldl_append, ← hfirst, hsplit, List.foldl_cons, List.foldl_nil]
    cases before with
    | nil =>
      cases after with
      | nil => rfl
      | cons first rest =>
        have hgt : cmp first next = .gt :=
          Std.OrientedCmp.gt_of_lt (hlt first List.mem_cons_self)
        rw [List.nil_append, List.nil_append, List.head?_cons, List.head?_cons, Aggregate.pick, hgt]
        rfl
    | cons best rest =>
      have hbest := Ordering.isLE_iff_ne_gt.mp (hle best List.mem_cons_self)
      rw [List.cons_append, List.cons_append, List.head?_cons, List.head?_cons, Aggregate.pick,
        if_neg (by simpa using hbest)]

end Ends

/-- If elements that have values are in the order of these, then the values of the sorted elements
are the sorted values. -/
theorem filterMap {α β : Type} {cmp : α → α → Ordering} {cmp' : β → β → Ordering}
    [Std.TransCmp cmp'] {f : α → Option β} {list sorted : List α}
    (hsome : ∀ {a b u v}, f a = some u → f b = some v → cmp a b = cmp' u v)
    (h : IsStableSort cmp list sorted) :
    IsStableSort cmp' (list.filterMap f) (sorted.filterMap f) := by
  constructor
  · rw [List.pairwise_filterMap]
    refine h.ordered.imp fun {a b} hab u hu v hv => ?_
    rwa [← hsome hu hv]
  · intro w
    rw [List.filter_filterMap, List.filter_filterMap]
    by_cases hex : ∃ a u, f a = some u ∧ ties cmp' w u = true
    · obtain ⟨a, u, hu, hwu⟩ := hex
      -- the values that tie with `w` are those of the elements that tie with `a`
      have hfilter (b : α) : (f b).filter (ties cmp' w) = if ties cmp a b then f b else none := by
        cases hb : f b with
        | none => simp
        | some v =>
          have hsame : ties cmp' w v = ties cmp a b := by
            rw [Bool.eq_iff_iff, ties_iff, ties_iff, hsome hu hb]
            have hwu := ties_iff.mp hwu
            exact ⟨Std.TransCmp.eq_trans (Std.OrientedCmp.eq_symm hwu), Std.TransCmp.eq_trans hwu⟩
          rw [Option.filter_some, hsame]
      simp only [hfilter]
      rw [← List.filterMap_filter, ← List.filterMap_filter, h.kept a]
    · have hempty (b : α) : (f b).filter (ties cmp' w) = none := by
        cases hb : f b with
        | none => rfl
        | some v =>
          refine Option.filter_eq_none_iff.mpr fun v' hv' hties => hex ⟨b, v, hb, ?_⟩
          rwa [Option.some.inj hv']
      simp only [hempty]
      simp

end IsStableSort

namespace Json

/-- The order of values by their keys. -/
def keyCmp (a b : Json) : Ordering :=
  (SortKey.ofJson a).cmp (.ofJson b)

instance : Std.TransCmp keyCmp where
  eq_swap := (inferInstance : Std.TransCmp SortKey.cmp).eq_swap
  isLE_trans := (inferInstance : Std.TransCmp SortKey.cmp).isLE_trans

theorem sortValues_eq_keyCmp {a b : Json} (ha : IsSortable (some a)) (hb : IsSortable (some b)) :
    sortValues a b = keyCmp a b :=
  sortCmp_eq ha hb

end Json

namespace Aggregate

variable {a : Aggregate} {rows vs : List Json}

/-- The value at the path, if there is one that is not null. -/
def present? (a : Aggregate) (row : Json) : Option Json :=
  (row.resolve? a.field).filter fun v => !v.isNull

theorem present?_eq_some_iff {row v : Json} :
    a.present? row = some v ↔ row.resolve? a.field = some v ∧ v ≠ .null := by
  rw [present?, Option.filter_eq_some_iff]
  exact and_congr_right fun _ => by cases v <;> simp [Json.isNull]

theorem values_eq (a : Aggregate) (rows : List Json) :
    a.values rows = rows.filterMap a.present? := by
  refine List.filterMap_congr fun row _ => ?_
  rw [present?]
  rcases row.resolve? a.field with - | (_ | _ | _ | _ | _ | _) <;> rfl

theorem isSortable_of_mem_values (h : ∀ row ∈ rows, Json.IsSortable (row.resolve? a.field))
    {v : Json} (hv : v ∈ a.values rows) : Json.IsSortable (some v) := by
  rw [values_eq, List.mem_filterMap] at hv
  obtain ⟨row, hrow, hpresent⟩ := hv
  rw [← (present?_eq_some_iff.mp hpresent).1]
  exact h row hrow

/-- The values of sorted rows are the sorted values of the rows. -/
theorem isStableSort_values (h : ∀ row ∈ rows, Json.IsSortable (row.resolve? a.field)) :
    IsStableSort Json.keyCmp (a.values rows)
      (a.values (sortDocuments [⟨a.field, .ascending⟩] rows)) := by
  have hrows : IsStableSort (SortField.keyCmpAll [⟨a.field, .ascending⟩]) rows
      (sortDocuments [⟨a.field, .ascending⟩] rows) :=
    isStableSort_sortDocuments fun d hd => List.forall_mem_singleton.mpr (h d hd)
  rw [values_eq, values_eq]
  refine hrows.filterMap fun {d e u v} hu hv => ?_
  have hd := (present?_eq_some_iff.mp hu).1
  have he := (present?_eq_some_iff.mp hv).1
  simp only [SortField.keyCmpAll, compareLex, SortField.keyCmp, SortDirection.apply, hd, he,
    Ordering.then_eq]
  rfl

theorem foldl_pick_some {α : Type} (replaces : Ordering → Bool) (cmp : α → α → Ordering)
    (list : List α) (best : α) :
    list.foldl (pick replaces cmp) (some best) =
      some (list.foldl (fun best v => if replaces (cmp best v) then v else best) best) := by
  induction list generalizing best with
  | nil => rfl
  | cons v rest ih => exact ih _

theorem minOf_eq (vs : List Json) :
    minOf vs = vs.foldl (pick (· == .gt) Json.sortValues) none := by
  cases vs with
  | nil => rfl
  | cons first rest => exact (foldl_pick_some (· == .gt) Json.sortValues rest first).symm

theorem maxOf_eq (vs : List Json) :
    maxOf vs = vs.foldl (pick (· != .gt) Json.sortValues) none := by
  cases vs with
  | nil => rfl
  | cons first rest =>
    have hstep (best v : Json) : (if Json.sortValues best v == .gt then best else v) =
        if Json.sortValues best v != .gt then v else best := by
      cases Json.sortValues best v <;> rfl
    simp only [maxOf, hstep]
    exact (foldl_pick_some (· != .gt) Json.sortValues rest first).symm

/-- A search with the order of sorting is one with the order of keys. -/
theorem foldl_pick_sortValues {replaces : Ordering → Bool}
    (h : ∀ v ∈ vs, Json.IsSortable (some v)) :
    vs.foldl (pick replaces Json.sortValues) none = vs.foldl (pick replaces Json.keyCmp) none :=
  foldl_pick_congr fun a ha b hb => Json.sortValues_eq_keyCmp (h a ha) (h b hb)

variable {sorted : List Json}

theorem minOf_eq_head? (h : ∀ v ∈ vs, Json.IsSortable (some v))
    (hsorted : IsStableSort Json.keyCmp vs sorted) : minOf vs = sorted.head? := by
  rw [minOf_eq, foldl_pick_sortValues h, hsorted.head?_eq]

theorem maxOf_eq_getLast? (h : ∀ v ∈ vs, Json.IsSortable (some v))
    (hsorted : IsStableSort Json.keyCmp vs sorted) : maxOf vs = sorted.getLast? := by
  rw [maxOf_eq, foldl_pick_sortValues h, hsorted.getLast?_eq]

theorem ne_null_of_mem_values {v : Json} (hv : v ∈ a.values rows) : v ≠ .null := by
  rw [values_eq, List.mem_filterMap] at hv
  obtain ⟨row, -, hpresent⟩ := hv
  exact (present?_eq_some_iff.mp hpresent).2

/-- Values of which none is null have an end that is null only if there are none of them. -/
theorem getD_null_eq_null_iff {found : Option Json} (hmem : ∀ v ∈ found, v ∈ a.values rows) :
    found.getD .null = .null ↔ found = none := by
  cases found with
  | none => exact iff_of_true rfl rfl
  | some v => exact iff_of_false (ne_null_of_mem_values (hmem v rfl)) (Option.some_ne_none v)

/-- The least and the greatest value of an attribute are the ends of its sorted values.

1. The rows sorted by the attribute have its values in order, and those that tie as they were: their
   values are the stable sort of the values of the rows, and so are these values sorted by
   themselves.
2. The least value is the first of the sorted ones and the greatest value the last. Without a
   value that is not null both are null, and never else.
3. No value comes before the least one, and none comes after the greatest one. -/
theorem extremes_sorted {path : String} {rows : List Json}
    (h : ∀ row ∈ rows, Json.IsSortable (row.resolve? path)) (title title' : Option String) :
    let least : Aggregate := ⟨path, .min, title⟩
    let greatest : Aggregate := ⟨path, .max, title'⟩
    let vs := least.values rows
    let sorted := least.values (sortDocuments [⟨path, .ascending⟩] rows)
    greatest.values rows = vs ∧
    (∀ a ∈ vs, ∀ b ∈ vs, Json.sortValues a b = Json.keyCmp a b) ∧
    IsStableSort Json.keyCmp vs sorted ∧
    (vs.mergeSort fun a b => Json.sortValues a b != .gt) = sorted ∧
    least.eval rows = .ok (sorted.head?.getD .null) ∧
    greatest.eval rows = .ok (sorted.getLast?.getD .null) ∧
    (least.eval rows = .ok .null ↔ vs = []) ∧ (greatest.eval rows = .ok .null ↔ vs = []) ∧
    ∀ v ∈ vs, ∃ l g, least.eval rows = .ok l ∧ greatest.eval rows = .ok g ∧
      Json.sortValues l v ≠ .gt ∧ Json.sortValues g v ≠ .lt := by
  intro least greatest vs sorted
  have hvs (v : Json) (hv : v ∈ vs) : Json.IsSortable (some v) :=
    isSortable_of_mem_values (a := least) h hv
  have hkeys (a : Json) (ha : a ∈ vs) (b : Json) (hb : b ∈ vs) :
      Json.sortValues a b = Json.keyCmp a b :=
    Json.sortValues_eq_keyCmp (hvs a ha) (hvs b hb)
  have hsorted : IsStableSort Json.keyCmp vs sorted := isStableSort_values (a := least) h
  have hmin : least.eval rows = .ok (sorted.head?.getD .null) := by
    rw [← minOf_eq_head? hvs hsorted]
    rfl
  have hmax : greatest.eval rows = .ok (sorted.getLast?.getD .null) := by
    rw [← maxOf_eq_getLast? hvs hsorted]
    rfl
  have hempty : sorted = [] ↔ vs = [] := by
    simp only [List.eq_nil_iff_forall_not_mem, hsorted.mem_iff]
  refine ⟨rfl, hkeys, hsorted, ?_, hmin, hmax, ?_, ?_, fun v hv => ?_⟩
  · have hle (a : Json) (ha : a ∈ vs) (b : Json) (hb : b ∈ vs) :
        (Json.sortValues a b != .gt) = (Json.keyCmp a b).isLE := by
      rw [hkeys a ha b hb]
      cases Json.keyCmp a b <;> rfl
    rw [mergeSort_congr hle]
    exact (isStableSort_mergeSort vs).unique hsorted
  · have hfound : ∀ v ∈ sorted.head?, v ∈ vs := fun v hv =>
      hsorted.mem_iff.mp (List.mem_of_head? hv)
    rw [hmin, Except.ok.injEq, getD_null_eq_null_iff hfound, List.head?_eq_none_iff, hempty]
  · have hfound : ∀ v ∈ sorted.getLast?, v ∈ vs :=
      fun v hv => hsorted.mem_iff.mp (List.mem_of_getLast? hv)
    rw [hmax, Except.ok.injEq, getD_null_eq_null_iff hfound, List.getLast?_eq_none_iff, hempty]
  · have hne : sorted ≠ [] := fun hnil => List.ne_nil_of_mem hv (hempty.mp hnil)
    obtain ⟨l, hl⟩ := Option.ne_none_iff_exists'.mp (mt List.head?_eq_none_iff.mp hne)
    obtain ⟨g, hg⟩ := Option.ne_none_iff_exists'.mp (mt List.getLast?_eq_none_iff.mp hne)
    have hlmem := hsorted.mem_iff.mp (List.mem_of_head? hl)
    have hgmem := hsorted.mem_iff.mp (List.mem_of_getLast? hg)
    refine ⟨l, g, by rw [hmin, hl, Option.getD_some], by rw [hmax, hg, Option.getD_some], ?_, ?_⟩
    · rw [hkeys l hlmem v hv]
      exact Ordering.isLE_iff_ne_gt.mp (hsorted.isLE_head hl hv)
    · rw [hkeys g hgmem v hv]
      have hle := hsorted.isLE_getLast hg hv
      intro hlt
      rw [Std.OrientedCmp.gt_of_lt hlt] at hle
      cases hle

/-- A post with the time of its last change. -/
def changedPost (time : Json) : Json :=
  .object [("changed", time)]

/-- Two times are the same point in time, and a third value is no time at all. The least value is
the time that comes first, in its own spelling, and the greatest value is the other text; without
that text it is the time that comes last. -/
theorem extremes_sorted_changed :
    let east := Json.text "2024-03-01T00:00:00+05:00"
    let utc := Json.text "2024-02-29T19:00:00Z"
    let never := Json.text "never"
    let rows := [changedPost never, changedPost east, changedPost .null, changedPost utc]
    let least : Aggregate := ⟨"changed", .min, none⟩
    let greatest : Aggregate := ⟨"changed", .max, none⟩
    least.eval rows = .ok east ∧ greatest.eval rows = .ok never ∧
      greatest.eval [changedPost east, changedPost .null, changedPost utc] = .ok utc ∧
      least.values (sortDocuments [⟨"changed", .ascending⟩] rows) = [east, utc, never] := by
  intro east utc never rows least greatest
  have hsame : Json.sortValues east utc = .eq := by decide +kernel
  have hafter : Json.sortValues never east = .gt := by decide +kernel
  have hbehind : Json.sortValues never utc = .gt := by decide +kernel
  have hvalues : least.values rows = [never, east, utc] := by cbv
  have htimes : least.values [changedPost east, changedPost .null, changedPost utc] =
      [east, utc] := by cbv
  have hsort : ([never, east, utc].mergeSort fun a b => Json.sortValues a b != .gt) =
      [east, utc, never] := by
    simp [List.mergeSort, List.MergeSort.Internal.splitInTwo, hsame, hafter, hbehind]
  have hsortTimes : ([east, utc].mergeSort fun a b => Json.sortValues a b != .gt) =
      [east, utc] := by
    simp [List.mergeSort, List.MergeSort.Internal.splitInTwo, hsame]
  obtain ⟨-, -, -, hsorted, hleast, hgreatest, -⟩ :=
    @extremes_sorted "changed" rows (by decide +kernel) none none
  obtain ⟨-, -, -, hsortedTimes, -, hlatest, -⟩ :=
    @extremes_sorted "changed" [changedPost east, changedPost .null, changedPost utc]
      (by decide +kernel) none none
  rw [hvalues, hsort] at hsorted
  rw [htimes, hsortTimes] at hsortedTimes
  rw [← hsorted] at hleast hgreatest
  rw [← hsortedTimes] at hlatest
  exact ⟨hleast, hgreatest, hlatest, hsorted.symm⟩

end Aggregate

end Criteria
