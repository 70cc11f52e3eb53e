import Criteria.Proofs.Plan.Acceptance
import Criteria.Proofs.Plan.Meaning

/-!
# Values that equal themselves

Scalars of a document equal themselves in comparisons, except for not-a-number, and texts do so
whether they are compared as points in time or by their characters. An integer that is beyond the
signed ones becomes a floating-point number among values, which it equals all the same.

## Main definitions

- `Json.IsFiniteScalar`: booleans, texts and finite numbers

## Main statements

- `Value.compare?_toJson`: a single value equals itself in a document
- `Json.compare?_toJson_ofJson`: a scalar of a document equals the value that it becomes
- `Criterion.truthOn_equals_iff`: a criterion is met where the attribute equals its value
-/

namespace Criteria

instance : Std.TransCmp Date.cmp :=
  inferInstanceAs (Std.TransCmp (compareLex (compareOn Date.year)
    (compareLex (compareOn Date.month) (compareOn Date.day))))

instance : Std.TransCmp (fun a b : Timestamp => a.date.cmp b.date) where
  eq_swap := (inferInstance : Std.TransCmp Date.cmp).eq_swap
  isLE_trans := (inferInstance : Std.TransCmp Date.cmp).isLE_trans

instance : Std.TransCmp Timestamp.cmp :=
  inferInstanceAs (Std.TransCmp (compareLex (fun a b : Timestamp => a.date.cmp b.date)
    (compareLex (compareOn Timestamp.hour) (compareLex (compareOn Timestamp.minute)
      (compareLex (compareOn Timestamp.second) (compareOn Timestamp.nanosecond))))))

theorem Double.ofInt_ne_nan (i : Int) : Double.ofInt i ≠ .nan :=
  nofun

theorem Double.ne_nan_of_isFinite {x : Double} (h : x.isFinite = true) : x ≠ .nan := by
  rintro rfl
  cases h

namespace Json

theorem compareTexts_self (s : String) : compareTexts s s = .eq := by
  unfold compareTexts
  cases Timestamp.ofText? s with
  | none => exact Std.compare_self
  | some t => exact (inferInstance : Std.ReflCmp Timestamp.cmp).compare_self

theorem compare?_text_self (s : String) : compare? (.text s) (.text s) = some .eq :=
  congrArg some (compareTexts_self s)

theorem compare?_bool_self (b : Bool) : compare? (.bool b) (.bool b) = some .eq := by
  cases b <;> rfl

/-- Numbers are equal if they are the same as floating-point numbers, which are not
not-a-number. -/
theorem compare?_number {m n : Number} (h : m.toDouble = n.toDouble) (hnan : n.toDouble ≠ .nan) :
    compare? (.number m) (.number n) = some .eq := by
  rw [compare?, compareNumbers?, h, Double.compare?_self hnan]

/-- A boolean, a text or a finite number. -/
def IsFiniteScalar : Json → Prop
  | .bool _ | .text _ => True
  | .number n => n.toDouble.isFinite = true
  | _ => False

/-- A scalar of a document equals itself. -/
theorem compare?_self {j : Json} (h : j.IsFiniteScalar) : j.compare? j = some .eq := by
  cases j with
  | bool b => exact compare?_bool_self b
  | text s => exact compare?_text_self s
  | number n => exact compare?_number rfl (Double.ne_nan_of_isFinite h)
  | null | array _ | object _ => exact h.elim

/-- The value that a number of a document becomes is that number, or one that is the same as a
floating-point number if the integer is too great for a value. -/
theorem exists_toJson_ofJson_number {n : Number} (h : n.toDouble.isFinite = true) :
    ∃ m : Number, (Value.ofJson (.number n)).toJson = .number m ∧ m.toDouble = n.toDouble := by
  rw [Value.ofJson]
  cases n with
  | double x =>
    refine ⟨.double x, ?_, rfl⟩
    rw [Value.ofNumber, Value.toJson, ofDouble, if_pos (show x.isFinite = true from h)]
  | int i =>
    show ∃ m, (if i ≤ maxInt64 then Value.int i else .float (.ofInt i)).toJson = .number m ∧ _
    split
    · exact ⟨.int i, by rw [Value.toJson]; rfl, rfl⟩
    · refine ⟨.double (.ofInt i), ?_, rfl⟩
      rw [Value.toJson, ofDouble, if_pos (show (Double.ofInt i).isFinite = true from h)]

/-- A value compares in the same way with a scalar of a document and with the value that this
becomes. -/
theorem compare?_toJson_ofJson_right (i : Json) {j : Json} (h : j.IsFiniteScalar) :
    i.compare? (Value.ofJson j).toJson = i.compare? j := by
  cases j with
  | bool b => rw [Value.ofJson, Value.toJson]
  | text s => rw [Value.ofJson, Value.toJson]
  | number n =>
    obtain ⟨m, hm, hdouble⟩ := exists_toJson_ofJson_number h
    rw [hm]
    cases i <;> simp only [compare?, compareNumbers?, hdouble]
  | null | array _ | object _ => exact h.elim

/-- A scalar of a document equals the value that it becomes. -/
theorem compare?_toJson_ofJson {j : Json} (h : j.IsFiniteScalar) :
    j.compare? (Value.ofJson j).toJson = some .eq := by
  rw [compare?_toJson_ofJson_right j h, compare?_self h]

end Json

/-- A single value equals itself in a document, unless it is a number that is not finite. -/
theorem Value.compare?_toJson {v : Value} (hsingle : v.IsSingle)
    (hfinite : ∀ x, v = .float x → x.isFinite = true) :
    v.toJson.compare? v.toJson = some .eq := by
  cases v with
  | null => exact absurd rfl hsingle.1
  | list items => exact absurd rfl (hsingle.2 items)
  | bool b =>
    rw [toJson]
    exact Json.compare?_bool_self b
  | text s =>
    rw [toJson]
    exact Json.compare?_text_self s
  | int i =>
    rw [toJson]
    exact Json.compare?_number rfl (Double.ofInt_ne_nan i)
  | float x =>
    have hx := hfinite x rfl
    rw [toJson, Json.ofDouble, if_pos hx]
    exact Json.compare?_number rfl (Double.ne_nan_of_isFinite hx)

/-- A value is equal to another as a criterion asks for if the comparison says so. Null is equal to
nothing. -/
theorem truthOfEqual_eq_true_iff {j expected : Json} :
    truthOfEqual (some j) expected = .true ↔ j.compare? expected = some .eq := by
  cases expected with
  | null => cases j <;> exact iff_of_false nofun nofun
  | _ =>
    simp only [truthOfEqual, Json.isNull, Bool.false_eq_true, if_false]
    cases j.compare? _ with
    | none => exact iff_of_false nofun nofun
    | some order => cases order <;> decide

/-- An attribute meets a criterion of equality if and only if it equals the value. -/
theorem Criterion.truthOn_equals_iff {path : String} {value : Value} {document j : Json}
    (hresolve : document.resolve? path = some j) :
    (⟨path, value, .equals⟩ : Criterion).truthOn (some document) = .true ↔
      j.compare? value.toJson = some .eq := by
  have hattribute : Scope.attribute? ⟨.null, [some document]⟩ ⟨.join 0, path⟩ =
      if j.isNull then none else some j := by
    have hbase : Scope.base? ⟨.null, [some document]⟩ (.join 0) = some document := rfl
    rw [Scope.attribute?, hbase, Option.bind_some, hresolve]
    cases j <;> rfl
  simp only [truthOn, predicate, Predicate.eval_compare, Comparison.eval, Scope.operand?,
    hattribute]
  cases j with
  | null =>
    constructor <;>
      · intro h
        cases h
  | _ => exact truthOfEqual_eq_true_iff

/-- An attribute meets a criterion of equality if it equals the value. -/
theorem Criterion.truthOn_equals_of_compare? {path : String} {value : Value} {document j : Json}
    (hresolve : document.resolve? path = some j) (h : j.compare? value.toJson = some .eq) :
    (⟨path, value, .equals⟩ : Criterion).truthOn (some document) = .true :=
  (truthOn_equals_iff hresolve).mpr h

end Criteria
