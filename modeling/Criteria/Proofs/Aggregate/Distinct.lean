import Mathlib.Data.Finset.Card
import Mathlib.Data.Finset.Dedup
import Criteria.Proofs.Aggregate.Extremes
import Criteria.Proofs.Document.Scalars

/-!
# Counts of different values

The different values of an attribute are told apart by their texts, and so each value that is not
the same as another one counts. Comparisons are coarser, so there may be fewer classes of equal
values than different values, but never more.

## Main definitions

- `Scalar.classes`: the classes of values that are equal in comparisons
- `Aggregate.see`: a value becomes one of those that have been seen

## Main statements

- `Aggregate.countTexts_eq`: the number of different texts
- `Aggregate.countDistinct_scalars`: the number of different values, and of classes of equal ones
-/

namespace Criteria

namespace Scalar

instance (v w : Scalar) : Decidable (v ≈ w) :=
  inferInstanceAs (Decidable (v.Equal w))

/-- The classes of the values under equality in comparisons. -/
def classes (scalars : List Scalar) : Finset (Quotient equality) :=
  scalars.toFinset.image (Quotient.mk equality)

variable {scalars : List Scalar}

/-- There are no more classes than values. -/
theorem card_classes_le (scalars : List Scalar) :
    (classes scalars).card ≤ scalars.toFinset.card :=
  Finset.card_image_le

/-- There are as many classes as values if and only if equal values are the same. -/
theorem card_classes_eq_iff : (classes scalars).card = scalars.toFinset.card ↔
    ∀ v ∈ scalars, ∀ w ∈ scalars, v.Equal w → v = w := by
  rw [classes, Finset.card_image_iff]
  constructor
  · intro h v hv w hw hequal
    exact h (List.mem_toFinset.mpr hv) (List.mem_toFinset.mpr hw) (Quotient.sound hequal)
  · intro h v hv w hw hclass
    exact h v (List.mem_toFinset.mp hv) w (List.mem_toFinset.mp hw) (Quotient.exact hclass)

end Scalar

namespace Aggregate

variable {seen : List String} {vs : List Json}

/-- A value becomes one of those that have been seen, unless it is one already. -/
def see (seen : List String) (v : Json) : List String :=
  if seen.contains v.compact then seen else v.compact :: seen

theorem nodup_see (h : seen.Nodup) (v : Json) : (see seen v).Nodup := by
  unfold see
  split
  case isTrue => exact h
  case isFalse hnew => exact List.nodup_cons.mpr ⟨by simpa using hnew, h⟩

theorem toFinset_see (seen : List String) (v : Json) :
    (see seen v).toFinset = insert v.compact seen.toFinset := by
  unfold see
  split
  case isTrue hold =>
    rw [Finset.insert_eq_of_mem]
    simpa using hold
  case isFalse => exact List.toFinset_cons

theorem nodup_foldl_see (h : seen.Nodup) (vs : List Json) : (vs.foldl see seen).Nodup := by
  induction vs generalizing seen with
  | nil => exact h
  | cons v vs ih => exact ih (nodup_see h v)

theorem toFinset_foldl_see (seen : List String) (vs : List Json) :
    (vs.foldl see seen).toFinset = seen.toFinset ∪ (vs.map Json.compact).toFinset := by
  induction vs generalizing seen with
  | nil => simp
  | cons v vs ih =>
    rw [List.foldl_cons, ih, toFinset_see, List.map_cons, List.toFinset_cons, Finset.union_insert,
      Finset.insert_union]

/-- The number of different texts. -/
theorem countTexts_eq (vs : List Json) : countTexts vs = (vs.map Json.compact).toFinset.card := by
  have hseen := toFinset_foldl_see [] vs
  rw [List.toFinset_nil, Finset.empty_union] at hseen
  rw [← hseen, List.toFinset_card_of_nodup (nodup_foldl_see List.nodup_nil vs)]
  rfl

theorem countTexts_scalars (scalars : List Scalar) :
    countTexts (scalars.map Scalar.json) = scalars.toFinset.card := by
  have htexts : ((scalars.map Scalar.json).map Json.compact).toFinset =
      scalars.toFinset.image fun v => v.json.compact := by
    ext text
    simp
  rw [countTexts_eq, htexts, Finset.card_image_of_injective _ Scalar.compact_injective]

theorem exists_scalars (h : ∀ v ∈ vs, v.IsFiniteScalar) :
    ∃ scalars : List Scalar, vs = scalars.map Scalar.json := by
  refine ⟨vs.pmap Scalar.mk h, ?_⟩
  rw [List.map_pmap]
  exact (List.pmap_eq_self.mpr fun _ _ => rfl).symm

variable {a : Aggregate} {row row' : Json} {rows : List Json} {scalars : List Scalar} {v w : Scalar}

theorem eval_countDistinct (hkind : a.kind = .countDistinct)
    (h : a.values rows = scalars.map Scalar.json) :
    a.eval rows = .ok (.ofNat scalars.toFinset.card) := by
  simp only [eval, hkind, h, countTexts_scalars]

theorem values_cons_of_scalar (hresolve : row.resolve? a.field = some v.json) :
    a.values (row :: rows) = v.json :: a.values rows := by
  obtain ⟨j, hj⟩ := v
  rw [values, List.filterMap_cons, hresolve]
  cases j <;> first | rfl | exact hj.elim

/-- Two rows count as one if they have the same value, and otherwise as two. -/
theorem eval_countDistinct_pair (hkind : a.kind = .countDistinct)
    (hv : row.resolve? a.field = some v.json) (hw : row'.resolve? a.field = some w.json) :
    a.eval [row, row'] = .ok (.ofNat (if v = w then 1 else 2)) := by
  have hvalues : a.values [row, row'] = [v, w].map Scalar.json := by
    rw [values_cons_of_scalar hv, values_cons_of_scalar hw]
    rfl
  rw [eval_countDistinct hkind hvalues]
  by_cases hsame : v = w <;> simp [hsame]

/-- The different values of an attribute are counted, which are scalars.

1. The count is the number of values that are not the same.
2. Equality in comparisons is an equivalence. Different values are equal only as floating-point
   numbers or as points in time.
3. There are no more classes of equal values than different values, and as many if and only if equal
   values are the same.
4. A row meets the criterion of equality with the value of another row if and only if their values
   are equal. Two rows count as one if their values are the same, and as two if they are not; so
   they count as two where the one does not meet the criterion with the other. -/
theorem countDistinct_scalars {path : String} (title : Option String)
    (h : ∀ v ∈ Aggregate.values ⟨path, .countDistinct, title⟩ rows, v.IsFiniteScalar) :
    let count : Aggregate := ⟨path, .countDistinct, title⟩
    ∃ scalars : List Scalar, count.values rows = scalars.map Scalar.json ∧
      count.eval rows = .ok (.ofNat scalars.toFinset.card) ∧
      Equivalence Scalar.Equal ∧
      (∀ v w : Scalar, v.Equal w ↔ v = w ∨
        (∃ m n, v.json = .number m ∧ w.json = .number n ∧
          m.toDouble.compare? n.toDouble = some .eq) ∨
        ∃ s t moment, v.json = .text s ∧ w.json = .text t ∧
          Timestamp.ofText? s = some moment ∧ Timestamp.ofText? t = some moment) ∧
      (Scalar.classes scalars).card ≤ scalars.toFinset.card ∧
      ((Scalar.classes scalars).card = scalars.toFinset.card ↔
        ∀ v ∈ scalars, ∀ w ∈ scalars, v.Equal w → v = w) ∧
      ∀ (row row' : Json) (v w : Scalar), row.resolve? path = some v.json →
        row'.resolve? path = some w.json →
        ((⟨path, .ofJson w.json, .equals⟩ : Criterion).truthOn (some row) = .true ↔ v.Equal w) ∧
        count.eval [row, row'] = .ok (.ofNat (if v = w then 1 else 2)) ∧
        ((⟨path, .ofJson w.json, .equals⟩ : Criterion).truthOn (some row) ≠ .true →
          count.eval [row, row'] = .ok (.ofNat 2)) := by
  intro count
  obtain ⟨scalars, hscalars⟩ := exists_scalars h
  refine ⟨scalars, hscalars, eval_countDistinct rfl hscalars, Scalar.equal_equivalence,
    fun v w => Scalar.equal_iff, Scalar.card_classes_le scalars, Scalar.card_classes_eq_iff,
    fun row row' v w hv hw => ?_⟩
  have hequals : (⟨path, .ofJson w.json, .equals⟩ : Criterion).truthOn (some row) = .true ↔
      v.Equal w := by
    rw [Criterion.truthOn_equals_iff hv, Json.compare?_toJson_ofJson_right v.json w.isFiniteScalar,
      Scalar.Equal]
  have hpair := eval_countDistinct_pair (a := count) rfl hv hw
  refine ⟨hequals, hpair, fun hmissed => ?_⟩
  have hdifferent : v ≠ w := by
    rintro rfl
    exact hmissed (hequals.mpr (Scalar.equal_equivalence.refl v))
  rw [hpair, if_neg hdifferent]

/-- Of four texts two are the same and two are spellings of one point in time: there are three
different values in two classes. The row with the one spelling meets the criterion with the other
one, and not the criterion with the text that denotes no point in time. -/
theorem countDistinct_scalars_changed :
    let east : Scalar := ⟨.text "2024-03-01T00:00:00+05:00", trivial⟩
    let utc : Scalar := ⟨.text "2024-02-29T19:00:00Z", trivial⟩
    let never : Scalar := ⟨.text "never", trivial⟩
    let count : Aggregate := ⟨"changed", .countDistinct, none⟩
    let rows := [changedPost east.json, changedPost utc.json, changedPost .null,
      changedPost never.json, changedPost east.json]
    count.eval rows = .ok (.ofNat 3) ∧ (Scalar.classes [east, utc, never, east]).card = 2 ∧
      (⟨"changed", .ofJson utc.json, .equals⟩ : Criterion).truthOn
        (some (changedPost east.json)) = .true ∧
      count.eval [changedPost never.json, changedPost east.json] = .ok (.ofNat 2) := by
  intro east utc never count rows
  have hvalues : count.values rows = [east, utc, never, east].map Scalar.json := by cbv
  have hscalar : ∀ v ∈ count.values rows, v.IsFiniteScalar := by
    rw [hvalues]
    intro v hv
    obtain ⟨scalar, -, rfl⟩ := List.mem_map.mp hv
    exact scalar.isFiniteScalar
  have hresolve (v : Scalar) : (changedPost v.json).resolve? "changed" = some v.json := by cbv
  obtain ⟨scalars, hscalars, heval, -, -, -, -, hrows⟩ := countDistinct_scalars none hscalar
  obtain rfl : scalars = [east, utc, never, east] :=
    List.map_injective_iff.mpr Scalar.json_injective (hscalars.symm.trans hvalues)
  have hcard : [east, utc, never, east].toFinset.card = 3 := by decide +kernel
  obtain ⟨hequals, -⟩ := hrows _ _ east utc (hresolve east) (hresolve utc)
  obtain ⟨hmissed, -, hapart⟩ := hrows _ _ never east (hresolve never) (hresolve east)
  have hunequal : ¬ never.Equal east := by decide +kernel
  rw [hcard] at heval
  exact ⟨heval, by decide +kernel, hequals.mpr (by decide +kernel),
    hapart fun hmet => hunequal (hmissed.mp hmet)⟩

/-- An integer and a floating-point number of the same size are equal, but count as two values. -/
theorem countDistinct_splits_equal :
    let whole : Scalar := ⟨.number (.int 1), by decide +kernel⟩
    let real : Scalar := ⟨.number (.double (.ofInt 1)), by decide +kernel⟩
    let count : Aggregate := ⟨"changed", .countDistinct, none⟩
    count.values [changedPost whole.json, changedPost real.json] =
        [whole, real].map Scalar.json ∧
      (Scalar.classes [whole, real]).card = 1 ∧
      (⟨"changed", .ofJson real.json, .equals⟩ : Criterion).truthOn
        (some (changedPost whole.json)) = .true ∧
      count.eval [changedPost whole.json, changedPost real.json] = .ok (.ofNat 2) := by
  intro whole real count
  have hresolve (v : Scalar) : (changedPost v.json).resolve? "changed" = some v.json := by cbv
  have hvalues : count.values [changedPost whole.json, changedPost real.json] =
      [whole, real].map Scalar.json := by
    rw [values_cons_of_scalar (hresolve whole), values_cons_of_scalar (hresolve real)]
    rfl
  have hequal : whole.json.compare? real.json = some .eq := by decide +kernel
  have hmet : (⟨"changed", .ofJson real.json, .equals⟩ : Criterion).truthOn
      (some (changedPost whole.json)) = .true := by
    rw [Criterion.truthOn_equals_iff (hresolve whole),
      Json.compare?_toJson_ofJson_right whole.json real.isFiniteScalar]
    exact hequal
  refine ⟨hvalues, by decide +kernel, hmet, ?_⟩
  have hcard : [whole, real].toFinset.card = 2 := by decide +kernel
  rw [eval_countDistinct rfl hvalues, hcard]

end Aggregate

end Criteria
