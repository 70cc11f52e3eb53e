import Criteria.Proofs.Aggregate.Extremes
import Criteria.Proofs.Aggregate.Results
import Criteria.Proofs.Double.Addition
import Mathlib.Algebra.GroupWithZero.Nat
import Mathlib.Algebra.Order.BigOperators.Group.List
import Mathlib.Data.Set.List

/-!
# Sums of integers

The values of an attribute are added up as floating-point numbers, in the order of the rows. If the
integers and the sums on the way are floating-point numbers, the result is their sum, rounded once.
Otherwise bits may be lost, and which of them depends on the order of the rows.

## Main statements

- `Aggregate.eval_sum_of_staysExact`: the sum of integers, rounded once
- `Aggregate.sum_exact`: which sums of integers are exact, and when in every order of the rows
-/

namespace Criteria

namespace Double

theorem natAbs_sum_le (integers : List Int) :
    integers.sum.natAbs ≤ (integers.map Int.natAbs).sum := by
  induction integers with
  | nil => decide
  | cons i rest ih =>
    rw [List.sum_cons, List.map_cons, List.sum_cons]
    omega

/-- Integers of which the magnitudes add up to `2 ^ 53` at most are added up exactly. -/
theorem staysExact_of_sum_le {integers : List Int} (h : (integers.map Int.natAbs).sum ≤ 2 ^ 53) :
    StaysExact integers := by
  constructor
  · intro i hi
    have hle : i.natAbs ≤ (integers.map Int.natAbs).sum :=
      List.single_le_sum (fun _ _ => Nat.zero_le _) _ (List.mem_map_of_mem hi)
    exact isExact_of_natAbs_le (Nat.le_trans hle h)
  · intro n _
    have hfirst := natAbs_sum_le (integers.take n)
    rw [← List.take_append_drop n integers, List.map_append, List.sum_append] at h
    exact isExact_of_natAbs_le (by omega)

end Double

namespace Aggregate

variable {a : Aggregate} {rows : List Json} {integers : List Int}

/-- The number that a value is. -/
def asDouble : Json → Double
  | .number n => n.toDouble
  | _ => .zero

theorem numbers_of_integers (h : a.values rows = integers.map Json.ofInt) :
    a.numbers rows = .ok (integers.map Double.ofInt) := by
  have hdoubles : (a.values rows).map asDouble = integers.map Double.ofInt := by
    rw [h, List.map_map]
    rfl
  rw [numbers, ← hdoubles]
  refine mapM_eq_ok_of_forall fun v hv => ?_
  rw [h] at hv
  obtain ⟨i, -, rfl⟩ := List.mem_map.mp hv
  rfl

theorem eval_sum_of_integers (hkind : a.kind = .sum) (h : a.values rows = integers.map Json.ofInt)
    (hne : integers ≠ []) :
    a.eval rows = .ok (ofComputed (sumOf (integers.map Double.ofInt))) := by
  have hsome : ¬ (integers.map Double.ofInt).isEmpty = true := by simpa using hne
  rw [eval, hkind]
  show (a.numbers rows).bind (fun xs => .ok (if xs.isEmpty then .null else ofComputed (sumOf xs))) =
    _
  rw [numbers_of_integers h, Except.bind, if_neg hsome]

theorem eval_sum_of_staysExact (hkind : a.kind = .sum)
    (h : a.values rows = integers.map Json.ofInt) (hne : integers ≠ [])
    (hexact : Double.StaysExact integers) :
    a.eval rows = .ok (ofComputed (.ofInt integers.sum)) := by
  rw [eval_sum_of_integers hkind h hne, Double.sumOf_ofInt hexact]

/-- A number is written as an integer below `2 ^ 63` if it is this integer. -/
theorem ofComputed_eq_ofInt_iff {x : Double} {i : Int} (h : i.natAbs < 2 ^ 63) :
    ofComputed x = .ofInt i ↔ x.toInt? = some i := by
  have hdouble : Json.ofDouble x ≠ .ofInt i := by
    unfold Json.ofDouble
    split <;> nofun
  have hword : Nat.pow 2 63 = 2 ^ 63 := rfl
  cases hwhole : x.toInt? with
  | none => simpa [ofComputed, hwhole] using hdouble
  | some j =>
    rw [ofComputed, hwhole, Option.some_inj, hword]
    constructor
    · intro heq
      simp only at heq
      split at heq
      · exact Number.int.inj (Json.number.inj heq)
      · exact absurd heq hdouble
    · rintro rfl
      exact if_pos h

/-- Integers of the same rows in another order are the same integers in another order. -/
theorem perm_of_integers {rows' : List Json} {integers' : List Int} (hperm : rows'.Perm rows)
    (h : a.values rows = integers.map Json.ofInt)
    (h' : a.values rows' = integers'.map Json.ofInt) : integers'.Perm integers := by
  have hinjective : Function.Injective Json.ofInt := fun _ _ heq =>
    Number.int.inj (Json.number.inj heq)
  have hvalues : (a.values rows').Perm (a.values rows) := hperm.filterMap _
  rw [h, h'] at hvalues
  exact (List.map_perm_map_iff hinjective).mp hvalues

/-- Rows that are reordered hold integers still. -/
theorem exists_integers_of_perm {rows' : List Json} (hperm : rows'.Perm rows)
    (h : a.values rows = integers.map Json.ofInt) :
    ∃ integers' : List Int, a.values rows' = integers'.map Json.ofInt := by
  have hvalues : (a.values rows').Perm (a.values rows) := hperm.filterMap _
  have hrange : a.values rows' ∈ Set.range (List.map Json.ofInt) := by
    rw [Set.range_list_map]
    intro v hv
    rw [hvalues.mem_iff, h] at hv
    obtain ⟨i, -, hi⟩ := List.mem_map.mp hv
    exact ⟨i, hi⟩
  obtain ⟨integers', hintegers'⟩ := hrange
  exact ⟨integers', hintegers'.symm⟩

/-- Integers are added up as floating-point numbers, which is exact as far as these go.

1. If all sums but the last are floating-point numbers, the result is the sum, rounded once. So a
   sum below `2 ^ 63` in magnitude is the result if and only if it is a floating-point number.
2. The result is the same for the rows in another order, if the sums on the way are floating-point
   numbers in that order too.
3. If the magnitudes add up to `2 ^ 53` at most, they are so in every order. -/
theorem sum_exact {path : String} {rows : List Json} {integers : List Int} (title : Option String)
    (h : Aggregate.values ⟨path, .sum, title⟩ rows = integers.map Json.ofInt)
    (hne : integers ≠ []) :
    let total : Aggregate := ⟨path, .sum, title⟩
    (Double.StaysExact integers →
      total.eval rows = .ok (ofComputed (.ofInt integers.sum)) ∧
      (integers.sum.natAbs < 2 ^ 63 →
        (total.eval rows = .ok (.ofInt integers.sum) ↔ Double.IsExact integers.sum)) ∧
      ∀ rows' integers', rows'.Perm rows → total.values rows' = integers'.map Json.ofInt →
        Double.StaysExact integers' → total.eval rows' = total.eval rows) ∧
    ((integers.map Int.natAbs).sum ≤ 2 ^ 53 →
      ∀ rows', rows'.Perm rows → total.eval rows' = .ok (.ofInt integers.sum)) := by
  intro total
  have hkind : total.kind = .sum := rfl
  have hother {rows' integers'} (hperm : rows'.Perm rows)
      (h' : total.values rows' = integers'.map Json.ofInt) (hexact' : Double.StaysExact integers') :
      total.eval rows' = .ok (ofComputed (.ofInt integers.sum)) := by
    have hintegers : integers'.Perm integers := perm_of_integers hperm h h'
    have hne' : integers' ≠ [] := by
      rintro rfl
      exact hne (List.nil_perm.mp hintegers)
    rw [eval_sum_of_staysExact hkind h' hne' hexact', hintegers.sum_eq]
  constructor
  · intro hexact
    have hsum := eval_sum_of_staysExact hkind h hne hexact
    refine ⟨hsum, fun hrange => ?_, fun rows' integers' hperm h' hexact' => ?_⟩
    · rw [hsum, Except.ok.injEq, ofComputed_eq_ofInt_iff hrange, Double.IsExact]
    · rw [hsum, hother hperm h' hexact']
  · intro hsmall rows' hperm
    obtain ⟨integers', h'⟩ := exists_integers_of_perm hperm h
    have hintegers : integers'.Perm integers := perm_of_integers hperm h h'
    have hsmall' : (integers'.map Int.natAbs).sum ≤ 2 ^ 53 := by
      rwa [(hintegers.map Int.natAbs).sum_eq]
    have hsum : integers.sum.natAbs ≤ 2 ^ 53 :=
      Nat.le_trans (Double.natAbs_sum_le integers) hsmall
    have hrange : integers.sum.natAbs < 2 ^ 63 :=
      Nat.lt_of_le_of_lt hsum (by decide)
    rw [hother hperm h' (Double.staysExact_of_sum_le hsmall'),
      (ofComputed_eq_ofInt_iff hrange).mpr (Double.isExact_of_natAbs_le hsum)]

/-- A post with the number of its views. -/
def viewedPost (views : Int) : Json :=
  .object [("views", .ofInt views)]

theorem values_viewedPost (kind : AggregateKind) (views : List Int) :
    Aggregate.values ⟨"views", kind, none⟩ (views.map viewedPost) = views.map Json.ofInt := by
  have hvalue (i : Int) : (viewedPost i).resolve? "views" = some (.ofInt i) := by cbv
  rw [values, List.filterMap_map, ← List.filterMap_eq_map]
  congr 1
  funext i
  simp only [Function.comp_apply, hvalue]
  rfl

/-- Large integers are added up exactly if all sums on the way are floating-point numbers. Small
ones are so in every order. -/
theorem sum_exact_viewed :
    let total : Aggregate := ⟨"views", .sum, none⟩
    let large : List Int := [2 ^ 60, -2 ^ 60, 9007199254740991]
    let other : List Int := [-2 ^ 60, 2 ^ 60, 9007199254740991]
    let small : List Int := [9007199254740000, -7, 900]
    Double.StaysExact large ∧ Double.StaysExact other ∧ other.Perm large ∧
      total.eval (large.map viewedPost) = .ok (.ofInt 9007199254740991) ∧
      total.eval (other.map viewedPost) = .ok (.ofInt 9007199254740991) ∧
      (small.map Int.natAbs).sum ≤ 2 ^ 53 ∧
      total.eval (small.map viewedPost).reverse = .ok (.ofInt 9007199254740893) := by
  intro total large other small
  have hlarge : Double.StaysExact large := by decide +kernel
  have hother : Double.StaysExact other := by decide +kernel
  have hperm : other.Perm large := by decide
  have hsmall : (small.map Int.natAbs).sum ≤ 2 ^ 53 := by decide
  obtain ⟨hexact, -⟩ := sum_exact none (values_viewedPost .sum large) (by decide)
  obtain ⟨-, hreordered⟩ := sum_exact none (values_viewedPost .sum small) (by decide)
  obtain ⟨-, hsum, hagree⟩ := hexact hlarge
  have hlargeSum : total.eval (large.map viewedPost) = .ok (.ofInt 9007199254740991) :=
    (hsum (by decide)).mpr (Double.isExact_of_natAbs_le (by decide))
  have hotherSum := hagree _ other (hperm.map viewedPost) (values_viewedPost .sum other) hother
  exact ⟨hlarge, hother, hperm, hlargeSum, hotherSum.trans hlargeSum, hsmall,
    hreordered hsmall _ (List.reverse_perm _)⟩

/-- One integer may be rounded alone, and two orders of the same integers may be rounded to two
sums. -/
theorem sum_rounds_viewed :
    let total : Aggregate := ⟨"views", .sum, none⟩
    let odd : List Int := [9007199254740993]
    let rising : List Int := [1, 1, 9007199254740992]
    let falling : List Int := [9007199254740992, 1, 1]
    total.values (odd.map viewedPost) = odd.map Json.ofInt ∧
      total.eval (odd.map viewedPost) = .ok (.ofInt 9007199254740992) ∧
      falling.Perm rising ∧
      total.eval (rising.map viewedPost) = .ok (.ofInt 9007199254740994) ∧
      total.eval (falling.map viewedPost) = .ok (.ofInt 9007199254740992) := by
  intro total odd rising falling
  have heval (views : List Int) (sum : Int) (hne : views ≠ []) (hrange : sum.natAbs < 2 ^ 63)
      (hsum : (sumOf (views.map Double.ofInt)).toInt? = some sum) :
      total.eval (views.map viewedPost) = .ok (.ofInt sum) := by
    rw [eval_sum_of_integers rfl (values_viewedPost .sum views) hne,
      (ofComputed_eq_ofInt_iff hrange).mpr hsum]
  exact ⟨values_viewedPost .sum odd, heval odd _ (by decide) (by decide) (by decide +kernel),
    by decide, heval rising _ (by decide) (by decide) (by decide +kernel),
    heval falling _ (by decide) (by decide) (by decide +kernel)⟩

end Aggregate

end Criteria
