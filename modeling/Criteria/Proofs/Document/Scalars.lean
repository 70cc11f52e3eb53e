import Mathlib.Data.Setoid.Basic
import Criteria.Proofs.Document.SortOrder
import Criteria.Proofs.Json.NumberTexts

/-!
# Scalars, the same and equal

Two scalars are the same if and only if their texts are. Comparisons are coarser: they take scalars
for equal that have the same key in sorting, so equality in comparisons is an equivalence. It joins
numbers that are the same as floating-point numbers, or zeros of different signs, and texts that
denote the same point in time.

## Main definitions

- `Scalar`: a boolean, a text or a finite number
- `Scalar.Equal`: equality in comparisons

## Main statements

- `Json.eq_of_compact_eq`, `Scalar.compact_injective`: scalars with the same text are the same
- `Scalar.equal_iff_key_eq`: equal scalars are those with the same key
- `Scalar.equal_equivalence`: equality in comparisons is an equivalence
- `Scalar.equal_iff`: how different scalars can be equal
-/

namespace Criteria

theorem Date.cmp_eq_eq_iff {d e : Date} : d.cmp e = .eq ↔ d = e := by
  cases d
  cases e
  simp [cmp, compareLex_eq_eq, compareOn]

theorem Timestamp.cmp_eq_eq_iff {s t : Timestamp} : s.cmp t = .eq ↔ s = t := by
  cases s
  cases t
  simp [cmp, compareLex_eq_eq, compareOn, Date.cmp_eq_eq_iff]

/-- Keys that are in the same place are the same. -/
theorem SortKey.cmp_eq_eq_iff {a b : SortKey} : a.cmp b = .eq ↔ a = b := by
  cases a <;> cases b <;> simp [cmp, place, Timestamp.cmp_eq_eq_iff]

/-- The kind of values with a key. -/
def SortKey.kindRank : SortKey → Nat
  | missing | null => Json.kindRank .null
  | bool b => Json.kindRank (.bool b)
  | number _ => Json.kindRank (.number default)
  | moment _ | plain _ => Json.kindRank (.text "")
  | array => Json.kindRank (.array [])
  | object => Json.kindRank (.object [])

namespace Json

variable {j k : Json}

theorem kindRank_ofJson (j : Json) : (SortKey.ofJson j).kindRank = j.kindRank := by
  cases j with
  | text s =>
    rw [SortKey.ofJson]
    split <;> rfl
  | _ => rfl

theorem kindRank_eq_of_compare? {order : Ordering} (h : j.compare? k = some order) :
    j.kindRank = k.kindRank := by
  cases j <;> cases k <;> first | rfl | cases h

theorem eq_of_quote_eq {s t : String} (h : quote s = quote t) : s = t := by
  have hs := Token.next?_quote s []
  rw [h, Token.next?_quote t []] at hs
  simpa using hs.symm

/-- The kind of values that a token stands for. -/
def tokenRank : Token → Nat
  | .bool _ => kindRank (.bool false)
  | .number _ => kindRank (.number default)
  | .string _ => kindRank (.text "")
  | _ => 0

/-- The text of a scalar is one token of its kind. -/
theorem exists_next?_render (h : j.IsFiniteScalar) :
    ∃ token, Token.next? j.render = some (token, []) ∧ tokenRank token = j.kindRank := by
  cases j with
  | bool b =>
    refine ⟨.bool b, ?_, rfl⟩
    cases b <;> rfl
  | number n =>
    obtain ⟨t, ht, -⟩ := Number.exists_denotes h
    exact ⟨_, Token.next?_of_number? ht, rfl⟩
  | text s =>
    have hnext := Token.next?_quote s []
    rw [List.append_nil] at hnext
    exact ⟨_, hnext, rfl⟩
  | null | array _ | object _ => exact h.elim

/-- Finite scalars with the same text are the same. -/
theorem eq_of_compact_eq (hj : j.IsFiniteScalar) (hk : k.IsFiniteScalar)
    (h : j.compact = k.compact) : j = k := by
  have hrender : j.render = k.render := by
    simpa only [compact, String.toList_ofList] using congrArg String.toList h
  obtain ⟨token, hnext, hrank⟩ := exists_next?_render hj
  obtain ⟨token', hnext', hrank'⟩ := exists_next?_render hk
  have hkind : j.kindRank = k.kindRank := by
    rw [hrender, hnext'] at hnext
    obtain rfl : token' = token := congrArg Prod.fst (Option.some.inj hnext)
    exact hrank.symm.trans hrank'
  cases j <;> cases k <;> try cases hkind
  case bool.bool b c => cases b <;> cases c <;> first | rfl | cases hrender
  case number.number m n => rw [Number.eq_of_text_eq hj hk hrender]
  case text.text s t => rw [eq_of_quote_eq hrender]
  all_goals exact hj.elim

end Json

instance : DecidablePred Json.IsFiniteScalar
  | .bool _ | .text _ => inferInstanceAs (Decidable True)
  | .number n => inferInstanceAs (Decidable (n.toDouble.isFinite = true))
  | .null | .array _ | .object _ => inferInstanceAs (Decidable False)

/-- A boolean, a text or a finite number. -/
@[ext]
structure Scalar where
  json : Json
  isFiniteScalar : json.IsFiniteScalar

namespace Scalar

variable {v w : Scalar}

theorem json_injective : Function.Injective json :=
  fun _ _ => Scalar.ext

theorem compact_injective : Function.Injective fun v : Scalar => v.json.compact :=
  fun v w h => json_injective (Json.eq_of_compact_eq v.isFiniteScalar w.isFiniteScalar h)

/-- Scalars are told apart by their texts. -/
instance : DecidableEq Scalar := fun v w =>
  decidable_of_iff (v.json.compact = w.json.compact) compact_injective.eq_iff

/-- Equality in comparisons. -/
def Equal (v w : Scalar) : Prop :=
  v.json.compare? w.json = some .eq

instance : DecidableRel Equal := fun v w =>
  inferInstanceAs (Decidable (v.json.compare? w.json = some .eq))

/-- What sorting looks at in the scalar. -/
def key (v : Scalar) : SortKey :=
  .ofJson v.json

/-- Equal scalars are those with the same key. -/
theorem equal_iff_key_eq : v.Equal w ↔ v.key = w.key := by
  have hv := v.isFiniteScalar
  have hw := w.isFiniteScalar
  have hkey (hkind : v.json.kindRank = w.json.kindRank) : v.Equal w ↔ v.key = w.key := by
    rw [Equal, ← Json.sortCmp_eq_eq_iff hv hw hkind,
      Json.sortCmp_eq hv.isSortable hw.isSortable, SortKey.cmp_eq_eq_iff]
    rfl
  constructor
  · exact fun h => (hkey (Json.kindRank_eq_of_compare? h)).mp h
  · intro h
    refine (hkey ?_).mpr h
    rw [← Json.kindRank_ofJson, ← Json.kindRank_ofJson]
    exact congrArg SortKey.kindRank h

theorem equal_equivalence : Equivalence Equal := by
  refine ⟨fun v => ?_, fun {v w} h => ?_, fun {u v w} huv hvw => ?_⟩
  · exact equal_iff_key_eq.mpr rfl
  · exact equal_iff_key_eq.mpr (equal_iff_key_eq.mp h).symm
  · exact equal_iff_key_eq.mpr ((equal_iff_key_eq.mp huv).trans (equal_iff_key_eq.mp hvw))

instance equality : Setoid Scalar :=
  ⟨Equal, equal_equivalence⟩

/-- How different scalars can be equal: as numbers, or as points in time. -/
theorem equal_iff : v.Equal w ↔ v = w ∨
    (∃ m n, v.json = .number m ∧ w.json = .number n ∧
      m.toDouble.compare? n.toDouble = some .eq) ∨
    ∃ s t moment, v.json = .text s ∧ w.json = .text t ∧
      Timestamp.ofText? s = some moment ∧ Timestamp.ofText? t = some moment := by
  constructor
  · intro h
    obtain ⟨j, hj⟩ := v
    obtain ⟨k, hk⟩ := w
    have hkey := equal_iff_key_eq.mp h
    cases j <;> cases k <;> try cases (show none = some Ordering.eq from h)
    case bool.bool b c => exact .inl (by simpa [key, SortKey.ofJson] using hkey)
    case number.number m n => exact .inr (.inl ⟨m, n, rfl, rfl, h⟩)
    case text.text s t =>
      simp only [key, SortKey.ofJson] at hkey
      cases hs : Timestamp.ofText? s <;> cases ht : Timestamp.ofText? t <;>
        rw [hs, ht] at hkey <;> cases hkey
      case none.none => exact .inl rfl
      case some.some moment => exact .inr (.inr ⟨s, t, moment, rfl, rfl, hs, ht⟩)
  · rintro (rfl | ⟨m, n, hv, hw, h⟩ | ⟨s, t, moment, hv, hw, hs, ht⟩)
    · exact equal_equivalence.refl v
    · rw [Equal, hv, hw]
      exact h
    · rw [equal_iff_key_eq, key, key, hv, hw, SortKey.ofJson, SortKey.ofJson, hs, ht]

end Scalar

end Criteria
