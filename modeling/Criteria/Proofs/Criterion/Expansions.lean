import Criteria.Proofs.Catalog.Identifiers

/-!
# Comparisons that are made of others

A range is a lower and an upper bound, a list is looked through for an equal value, and an order
relation that allows equality is the strict relation or equality. This is so in three-valued logic,
where values of different kinds are unequal but in no order.

## Main definitions

- `Operator.OrEqual`: the operators that allow equality, with the strict ones

## Main statements

- `truthOfOrder_eq_or`: order relations that allow equality
- `Comparison.not_eval_oneOf`: a value that is none of several is unequal to each of them
- `Comparison.eval_isEmpty_eq_true_iff`: what is empty has no elements
-/

namespace Criteria

/-- A disjunction is false where each of its members is. -/
theorem Truth.not_any (ts : List Truth) : (any ts).not = all (ts.map not) := by
  induction ts with
  | nil => rfl
  | cons t rest ih => rw [any_cons, not_or, ih, List.map_cons, all_cons]

theorem Json.compare?_null_right (j : Json) : j.compare? .null = none := by
  cases j <;> rfl

theorem Json.isNull_eq_true_iff {j : Json} : j.isNull = true ↔ j = .null := by
  cases j <;> simp [isNull]

/-- An order relation that allows equality is the strict relation or equality. Values that cannot
be compared are in no order, which leaves it unknown although they are unequal. -/
theorem truthOfOrder_eq_or {accept strict : Ordering → Bool}
    (h : ∀ order, accept order = (strict order || order == .eq)) (actual : Option Json)
    (bound : Json) :
    truthOfOrder actual bound accept =
      (truthOfOrder actual bound strict).or (truthOfEqual actual bound) := by
  cases actual with
  | none => rfl
  | some j =>
    simp only [truthOfOrder, truthOfEqual, Option.bind_some]
    cases hcompare : j.compare? bound with
    | none => cases bound.isNull <;> rfl
    | some order =>
      have hbound : bound.isNull = false := by
        rw [Bool.eq_false_iff, ne_eq, Json.isNull_eq_true_iff]
        rintro rfl
        rw [Json.compare?_null_right] at hcompare
        cases hcompare
      simp only [hbound, Bool.false_eq_true, if_false, h, Truth.or_ofBool, Option.some_beq_some]

/-- What is empty is what has no elements. A scalar has no number of elements. -/
theorem isEmptyValue_eq_true_iff (actual : Option Json) :
    isEmptyValue actual = true ↔ truthOfEqual (Scope.size? actual) (.ofInt 0) = .true := by
  have hcount (n : Nat) : n = 0 ↔ truthOfEqual (some (.ofNat n)) (.ofInt 0) = .true := by
    have happart : Double.TellsApart n 0 :=
      (Double.tellsApart_of_natAbs_lt (by decide) n).symm
    show n = 0 ↔ truthOfEqual (some (.ofInt n)) (.ofInt 0) = .true
    rw [truthOfEqual_ofInt_of_tellsApart happart, Truth.ofBool_eq_true_iff, decide_eq_true_iff,
      Int.natCast_eq_zero]
  match actual with
  | none => exact iff_of_true rfl ((hcount 0).mp rfl)
  | some (.array items) =>
    rw [Scope.size?, ← hcount, List.length_eq_zero_iff]
    exact List.isEmpty_iff
  | some (.object fields) =>
    rw [Scope.size?, ← hcount, List.length_eq_zero_iff]
    exact List.isEmpty_iff
  | some .null | some (.bool _) | some (.number _) | some (.text _) =>
    exact iff_of_false nofun nofun

namespace Comparison

variable (s : Scope) (o : Operand) (v : Value)

theorem eval_greaterEquals : (greaterEquals o v).eval s =
    ((greaterThan o v).eval s).or ((equal o v).eval s) :=
  truthOfOrder_eq_or (fun order => by cases order <;> rfl) _ _

theorem eval_lessEquals : (lessEquals o v).eval s =
    ((lessThan o v).eval s).or ((equal o v).eval s) :=
  truthOfOrder_eq_or (fun order => by cases order <;> rfl) _ _

/-- A value that is none of several is unequal to each of them. -/
theorem not_eval_oneOf (vs : List Value) : ((oneOf o vs).eval s).not =
    Truth.all (vs.map fun v => (notEqual o v).eval s) := by
  rw [eval, Truth.not_any, List.map_map]
  rfl

theorem eval_isEmpty_eq_true_iff (a : Attribute) :
    (isEmpty (.plain a)).eval s = .true ↔ (equal (.size a) (.int 0)).eval s = .true := by
  have hzero : (Value.int 0).toJson = .ofInt 0 := by rw [Value.toJson]
  rw [eval, eval, hzero, Truth.ofBool_eq_true_iff]
  exact isEmptyValue_eq_true_iff _

end Comparison

/-- An operator that allows equality, the strict one, and the one for equality, all on the same
operand. -/
inductive Operator.OrEqual : Operator → Operator → Operator → Prop
  | greater : OrEqual .greaterEquals .greaterThan .equals
  | less : OrEqual .lessEquals .lessThan .equals
  | greaterTime : OrEqual .greaterEqualsTime .greaterThanTime .equals
  | lessTime : OrEqual .lessEqualsTime .lessThanTime .equals
  | sizeGreater : OrEqual .sizeGreaterEquals .sizeGreaterThan .sizeEquals
  | sizeLess : OrEqual .sizeLessEquals .sizeLessThan .sizeEquals

namespace Criterion

theorem eval_of_orEqual {op strict equality : Operator} (h : op.OrEqual strict equality)
    (source : Source) (s : Scope) (path : String) (v : Value) :
    let truth (op : Operator) := ((⟨path, v, op⟩ : Criterion).predicate source).eval s
    truth op = (truth strict).or (truth equality) := by
  intro truth
  cases h <;>
    simp only [truth, predicate, Predicate.eval_compare, Comparison.eval_greaterEquals,
      Comparison.eval_lessEquals]

end Criterion

end Criteria
