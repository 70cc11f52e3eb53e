import Criteria.Proofs.Document.Equality

/-!
# The order of values in sorting

Each value has a key: its kind, where texts that denote points in time are one kind and all other
texts are another, and what is to be compared within the kind. Values are sorted by their keys,
which are in a total preorder. The order of comparisons is none: a text that denotes no point in
time is compared by its characters even with texts that are compared with each other in time.

## Main definitions

- `SortKey`, `SortKey.cmp`: what sorting looks at in a value, and its order
- `Json.IsSortable`: values that have a place in sorting

## Main statements

- `Json.sortCmp_eq`: values are sorted by their keys
- `Json.sortCmp_eq_eq_iff`: scalars of one kind are equal in sorting as they are in comparisons
- `Json.sortCmp_preorder`: the order of values in sorting is a total preorder
-/

namespace Criteria

/-- What sorting looks at in a value that may be missing. -/
inductive SortKey where
  | missing
  | null
  | bool (b : Bool)
  /-- A number, by its rank among floating-point numbers. -/
  | number (rank : Int)
  /-- A text that denotes a point in time. -/
  | moment (t : Timestamp)
  /-- Any other text. -/
  | plain (s : String)
  | array
  | object

namespace SortKey

/-- The place of a kind of values among the others. -/
def place : SortKey → Nat
  | missing => 0
  | null => 1
  | bool _ => 2
  | number _ => 3
  | moment _ => 4
  | plain _ => 5
  | array => 6
  | object => 7

/-- Keys by their places, and two of one kind by what they hold. -/
def cmp : SortKey → SortKey → Ordering
  | bool b, bool c => compare b c
  | number i, number j => compare i j
  | moment s, moment t => s.cmp t
  | plain s, plain t => compare s t
  | a, b => compare a.place b.place

/-- The boolean, the number, the point in time and the characters of a key, where it has them. -/
def truth : SortKey → Bool
  | bool b => b
  | _ => false

def rank : SortKey → Int
  | number rank => rank
  | _ => 0

def time : SortKey → Timestamp
  | moment t => t
  | _ => default

def characters : SortKey → String
  | plain s => s
  | _ => ""

theorem cmp_eq (a b : SortKey) : a.cmp b =
    compareLex (compareOn place) (compareLex (compareOn truth) (compareLex (compareOn rank)
      (compareLex (fun a b => a.time.cmp b.time) (compareOn characters)))) a b := by
  have htime (t : Timestamp) : t.cmp t = .eq :=
    (inferInstance : Std.ReflCmp Timestamp.cmp).compare_self
  cases a <;> cases b <;> first
    | rfl
    | simp [cmp, compareLex, compareOn, place, truth, rank, time, characters, htime]

instance : Std.TransCmp (fun a b : SortKey => a.time.cmp b.time) where
  eq_swap := (inferInstance : Std.TransCmp Timestamp.cmp).eq_swap
  isLE_trans := (inferInstance : Std.TransCmp Timestamp.cmp).isLE_trans

instance : Std.TransCmp cmp := by
  rw [funext₂ cmp_eq]
  infer_instance

/-- What is of an earlier kind comes before. -/
theorem cmp_of_place_lt {a b : SortKey} (h : a.place < b.place) : a.cmp b = .lt := by
  have hplace : compareOn place a b = .lt := Nat.compare_eq_lt.mpr h
  rw [cmp_eq, compareLex, hplace]
  rfl

/-- The key of a value. -/
def ofJson : Json → SortKey
  | .null => null
  | .bool b => bool b
  | .number n => number (n.toDouble.signedRank?.getD 0)
  | .text s =>
    match Timestamp.ofText? s with
    | some t => moment t
    | none => plain s
  | .array _ => array
  | .object _ => object

/-- The key of a value that may be missing. -/
def of? : Option Json → SortKey
  | none => missing
  | some j => ofJson j

end SortKey

namespace Json

/-- The value has its place among others: it is not the number that compares with nothing. -/
def IsSortable : Option Json → Prop
  | some (.number n) => n.toDouble ≠ .nan
  | _ => True

instance : DecidablePred IsSortable
  | some (.number n) => inferInstanceAs (Decidable (n.toDouble ≠ .nan))
  | none | some .null | some (.bool _) | some (.text _) | some (.array _) | some (.object _) =>
    inferInstanceAs (Decidable True)

theorem cmp_ofJson_text (s t : String) :
    (SortKey.ofJson (.text s)).cmp (.ofJson (.text t)) = sortTexts s t := by
  simp only [SortKey.ofJson, sortTexts]
  cases Timestamp.ofText? s <;> cases Timestamp.ofText? t <;> rfl

theorem cmp_ofJson_number {m n : Number} (hm : m.toDouble ≠ .nan) (hn : n.toDouble ≠ .nan) :
    some ((SortKey.ofJson (.number m)).cmp (.ofJson (.number n))) = compareNumbers? m n := by
  simp only [SortKey.ofJson, compareNumbers?]
  cases hx : m.toDouble with
  | nan => exact absurd hx hm
  | ranked s p =>
    cases hy : n.toDouble with
    | nan => exact absurd hy hn
    | ranked t q => rfl

/-- Values are sorted by their keys. -/
theorem sortCmp_eq {a b : Option Json} (ha : IsSortable a) (hb : IsSortable b) :
    sortCmp a b = (SortKey.of? a).cmp (.of? b) := by
  rcases a with - | (- | _ | m | s | _ | _) <;> rcases b with - | (- | _ | n | t | _ | _) <;>
    try rfl
  case some.number.some.number =>
    show (compareNumbers? m n).getD .eq = _
    rw [← cmp_ofJson_number ha hb]
    rfl
  case some.text.some.text => exact (cmp_ofJson_text s t).symm
  -- the place of a text among other kinds does not depend on whether it denotes a point in time
  all_goals
    simp only [SortKey.of?, SortKey.ofJson]
    split <;> rfl

theorem IsFiniteScalar.isSortable {j : Json} (h : j.IsFiniteScalar) : IsSortable (some j) := by
  cases j with
  | number n => exact Double.ne_nan_of_isFinite h
  | _ => trivial

/-- Scalars of one kind are equal in sorting if and only if they are equal in comparisons. A text
that denotes a point in time is equal to no text that does not, in either way. -/
theorem sortCmp_eq_eq_iff {x y : Json} (hx : x.IsFiniteScalar) (hy : y.IsFiniteScalar)
    (hkind : x.kindRank = y.kindRank) :
    sortCmp (some x) (some y) = .eq ↔ x.compare? y = some .eq := by
  cases x <;> cases y <;> try cases hkind
  case bool.bool b c => exact Option.some_inj.symm
  case number.number m n =>
    show (compareNumbers? m n).getD .eq = .eq ↔ compareNumbers? m n = some .eq
    rw [← cmp_ofJson_number hx.isSortable hy.isSortable, Option.getD_some,
      Option.some_inj]
  case text.text s t =>
    show sortTexts s t = .eq ↔ some (compareTexts s t) = some .eq
    rw [Option.some_inj, sortTexts, compareTexts]
    cases hs : Timestamp.ofText? s <;> cases ht : Timestamp.ofText? t <;>
      simp only [reduceCtorEq, false_iff]
    all_goals
      intro h
      rw [Std.LawfulEqCmp.eq_of_compare h, ht] at hs
      cases hs
  all_goals exact hx.elim

/-- The order of values in sorting is a total preorder, and agrees with equality in comparisons.

1. Each value has the place of itself, of two values the one comes before or after the other as the
   other does after or before it, and what comes before a value comes before all that come after it.
   This is so for missing values, for values of different kinds, and for texts some of which denote
   points in time.
2. Two scalars of one kind, which are booleans, numbers or texts, have the same place if and only if
   they are equal in comparisons: if and only if an attribute with the one meets the criterion of
   equality with the other. -/
theorem sortCmp_preorder {a b c : Option Json} (ha : IsSortable a) (hb : IsSortable b)
    (hc : IsSortable c) :
    sortCmp a a = .eq ∧ sortCmp b a = (sortCmp a b).swap ∧
    (sortCmp a b ≠ .gt → sortCmp b c ≠ .gt → sortCmp a c ≠ .gt) ∧
    ∀ x y : Json, x.IsFiniteScalar → y.IsFiniteScalar → x.kindRank = y.kindRank →
      (sortCmp (some x) (some y) = .eq ↔ x.compare? y = some .eq) ∧
      ∀ document path, document.resolve? path = some x →
        (sortCmp (some x) (some y) = .eq ↔
          (⟨path, .ofJson y, .equals⟩ : Criterion).truthOn (some document) = .true) := by
  refine ⟨?_, ?_, fun hab hbc => ?_, fun x y hx hy hkind => ?_⟩
  · rw [sortCmp_eq ha ha]
    exact Std.ReflCmp.compare_self
  · rw [sortCmp_eq hb ha, sortCmp_eq ha hb]
    exact Std.OrientedCmp.eq_swap
  · rw [sortCmp_eq ha hb] at hab
    rw [sortCmp_eq hb hc] at hbc
    rw [sortCmp_eq ha hc]
    exact Ordering.isLE_iff_ne_gt.mp (Std.TransCmp.isLE_trans
      (Ordering.isLE_iff_ne_gt.mpr hab) (Ordering.isLE_iff_ne_gt.mpr hbc))
  · have hequal := sortCmp_eq_eq_iff hx hy hkind
    refine ⟨hequal, fun document path hresolve => ?_⟩
    rw [hequal, Criterion.truthOn_equals_iff hresolve, compare?_toJson_ofJson_right x hy]

/-- The first two of three texts denote points in time, the earlier one with the greater
characters, and the third does not although it begins with a date. So it is sorted after both, but
compares as less than the first. -/
theorem sortCmp_preorder_texts :
    let first := Json.text "2024-03-01T00:00:00+05:00"
    let second := Json.text "2024-02-29T20:00:00Z"
    let third := Json.text "2024-01-01 at noon"
    sortCmp (some first) (some second) = .lt ∧ sortCmp (some second) (some third) = .lt ∧
      sortCmp (some first) (some third) ≠ .gt ∧ sortCmp (some second) (some first) = .gt ∧
      third.compare? first = some .lt ∧
      (⟨"at", .ofJson second, .equals⟩ : Criterion).truthOn
        (some (.object [("at", first)])) ≠ .true := by
  intro first second third
  have hbefore : sortCmp (some first) (some second) = .lt := by decide +kernel
  have hplain : sortCmp (some second) (some third) = .lt := by decide +kernel
  have hresolve : (Json.object [("at", first)]).resolve? "at" = some first := rfl
  have hfirst : IsSortable (some first) := trivial
  have hsecond : IsSortable (some second) := trivial
  have hthird : IsSortable (some third) := trivial
  obtain ⟨-, hswap, htrans, hscalars⟩ := sortCmp_preorder hfirst hsecond hthird
  obtain ⟨-, hequals⟩ := hscalars first second trivial trivial rfl
  refine ⟨hbefore, hplain, htrans ?_ ?_, ?_, by decide +kernel, ?_⟩
  · rw [hbefore]
    nofun
  · rw [hplain]
    nofun
  · rw [hswap, hbefore]
    rfl
  · intro hmet
    have hsame := (hequals _ _ hresolve).mpr hmet
    rw [hbefore] at hsame
    cases hsame

end Json

end Criteria
