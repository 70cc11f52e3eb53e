import Criteria.Evaluation
import Criteria.Plan.Basic
import Criteria.Proofs.Text.Lowering

/-!
# Ignoring case

An operator that ignores case takes both the text of the attribute and the value in lower case. A
match is not lost by that where the sigmas of the value are kept: where each of them ends a word in
the text exactly if it ends one in the value. A value without capital sigmas has no others.

## Main definitions

- `Operator.Counterpart`: the operators that look for a value, and those that do so whatever the
  case

## Main statements

- `Criterion.eval_of_counterpart`: what the two operators mean
- `Criterion.ignoringCase_keeps_match`: matches that are not lost
-/

namespace Criteria

/-- An operator that looks for a value in a text, the one that does so whatever the case, and
whether the text may go on before the value and after it. -/
inductive Operator.Counterpart : Operator → Operator → Bool → Bool → Prop
  | like : Counterpart .like .likeIgnoreCase true true
  | contains : Counterpart .contains .containsIgnoreCase true true
  | startsWith : Counterpart .startsWith .startsWithIgnoreCase false true
  | endsWith : Counterpart .endsWith .endsWithIgnoreCase true false

namespace Criterion

open Text (framed Occurs SigmasKept Literal isLikeChars lowerChars)

variable {s : Scope} {source : Source} {path t v : String} {op op' : Operator} {before after : Bool}

/-- What a comparison with a pattern means for a text, and what it means if it ignores case. -/
theorem eval_likeComparison (hattribute : s.attribute? ⟨source, path⟩ = some (.text t))
    {pattern : String} (hpattern : pattern.toList = framed before after v.toList) :
    (likeComparison ⟨source, path⟩ false pattern).eval s =
        .ofBool (isLikeChars t.toList (framed before after v.toList)) ∧
      (likeComparison ⟨source, path⟩ true pattern).eval s =
        .ofBool (isLikeChars (lowerChars t.toList) (framed before after (lowerChars v.toList))) := by
  have hplain : s.operand? (.plain ⟨source, path⟩) = some (.text t) := hattribute
  have hlower : s.operand? (.lower ⟨source, path⟩) = some (.text (Text.lower t)) := by
    rw [Scope.operand?, hattribute]
    rfl
  constructor
  · show truthOfLike (s.operand? (.plain ⟨source, path⟩)) pattern = _
    rw [hplain, ← hpattern]
    rfl
  · -- the runs of the pattern stay, and only the value between them is lower-cased
    show truthOfLike (s.operand? (.lower ⟨source, path⟩)) (Text.lower pattern) = _
    have htext : (Text.lower t).toList = lowerChars t.toList := String.toList_ofList
    have hlowered : (Text.lower pattern).toList = framed before after (lowerChars v.toList) := by
      rw [Text.lower, String.toList_ofList, hpattern, Text.lowerChars_framed]
    rw [hlower, ← htext, ← hlowered]
    rfl

/-- An operator looks for the text of its value, with runs where the text may go on, and its
counterpart does so with both sides in lower case. -/
theorem predicate_of_counterpart (h : op.Counterpart op' before after) (source : Source)
    (path : String) (value : Value) :
    ∃ pattern : String, pattern.toList = framed before after value.pattern.toList ∧
      (⟨path, value, op⟩ : Criterion).predicate source =
        .compare (likeComparison ⟨source, path⟩ false pattern) ∧
      (⟨path, value, op'⟩ : Criterion).predicate source =
        .compare (likeComparison ⟨source, path⟩ true pattern) := by
  have hpercent : ("%" : String).toList = ['%'] := rfl
  cases h with
  | like | contains =>
    refine ⟨_, ?_, rfl, rfl⟩
    rw [String.toList_append, String.toList_append, hpercent]
    rfl
  | startsWith =>
    refine ⟨_, ?_, rfl, rfl⟩
    rw [String.toList_append, hpercent]
    rfl
  | endsWith =>
    refine ⟨_, ?_, rfl, rfl⟩
    rw [String.toList_append, hpercent]
    exact (List.append_nil _).symm

/-- An operator compares with a value that may have runs at its ends, and its counterpart does so
with the lower-case forms of both sides. -/
theorem eval_of_counterpart (h : op.Counterpart op' before after)
    (hattribute : s.attribute? ⟨source, path⟩ = some (.text t)) :
    ((⟨path, .text v, op⟩ : Criterion).predicate source).eval s =
        .ofBool (isLikeChars t.toList (framed before after v.toList)) ∧
      ((⟨path, .text v, op'⟩ : Criterion).predicate source).eval s =
        .ofBool (isLikeChars (lowerChars t.toList) (framed before after (lowerChars v.toList))) := by
  obtain ⟨pattern, hpattern, hplain, hlower⟩ := predicate_of_counterpart h source path (.text v)
  rw [hplain, hlower, Predicate.eval_compare, Predicate.eval_compare]
  exact eval_likeComparison hattribute hpattern

/-- Ignoring case does not lose a match in which the sigmas of the value are kept.

1. An operator is true exactly if the value stands in the text. Where it does so with its sigmas
   kept, the counterpart that ignores case is true as well.
2. If they are kept wherever the value stands, a text that does not contain the value in any case
   does not contain it as it is.
3. The sigmas of a value without capital sigmas are kept everywhere. -/
theorem ignoringCase_keeps_match (hattribute : s.attribute? ⟨source, path⟩ = some (.text t))
    (hv : Literal v.toList) :
    let truth (op : Operator) : Truth := ((⟨path, .text v, op⟩ : Criterion).predicate source).eval s
    (∀ op op' before after, op.Counterpart op' before after →
      (truth op = .true ↔ ∃ a b, Occurs before after v.toList t.toList a b) ∧
      ∀ a b, Occurs before after v.toList t.toList a b → SigmasKept v.toList a b →
        truth op' = .true) ∧
    ((∀ a b, Occurs true true v.toList t.toList a b → SigmasKept v.toList a b) →
      truth .notContainsIgnoreCase = .true → truth .notContains = .true) ∧
    ('Σ' ∉ v.toList → ∀ a b, SigmasKept v.toList a b) := by
  intro truth
  have heach {op op' : Operator} {before after : Bool} (h : op.Counterpart op' before after) :
      truth op = .ofBool (isLikeChars t.toList (framed before after v.toList)) ∧
        truth op' =
          .ofBool (isLikeChars (lowerChars t.toList) (framed before after (lowerChars v.toList))) :=
    eval_of_counterpart h hattribute
  have hkept {before after : Bool} {a b : List Char}
      (hoccurs : Occurs before after v.toList t.toList a b) (hsigmas : SigmasKept v.toList a b) :
      isLikeChars (lowerChars t.toList) (framed before after (lowerChars v.toList)) = true := by
    obtain ⟨a', b', hlowered⟩ := hoccurs.lowerChars hsigmas
    exact Text.isLikeChars_framed_of_occurs hlowered
  refine ⟨fun op op' before after h => ⟨?_, fun a b hoccurs hsigmas => ?_⟩, fun hall hnot => ?_,
    Text.sigmasKept_of_not_mem⟩
  · rw [(heach h).1, ← Text.isLikeChars_framed_iff hv]
    cases isLikeChars t.toList (framed before after v.toList) <;> simp [Truth.ofBool]
  · rw [(heach h).2, hkept hoccurs hsigmas]
    rfl
  · obtain ⟨hplain, hlower⟩ := heach .contains
    have hnotContains : truth .notContains = (truth .contains).not := rfl
    have hnotIgnoring : truth .notContainsIgnoreCase = (truth .containsIgnoreCase).not := rfl
    rw [hnotContains, hplain]
    rw [hnotIgnoring, hlower] at hnot
    cases hlike : isLikeChars t.toList (framed true true v.toList) with
    | false => rfl
    | true =>
      -- the value stands in the text, so it is found whatever the case
      obtain ⟨a, b, hoccurs⟩ := (Text.isLikeChars_framed_iff hv).mp hlike
      rw [hkept hoccurs (hall a b hoccurs)] at hnot
      cases hnot

/-- A document with a name. -/
def namedDocument (name : String) : Scope :=
  ⟨.object [("name", .text name)], []⟩

/-- The sigma of the value ends no word, neither in the name nor in the value. -/
theorem ignoringCase_keeps_match_inner :
    ((⟨"name", .text "ΣΑ", .endsWith⟩ : Criterion).predicate .root).eval (namedDocument "ΟΣΑ") =
        .true ∧
      ((⟨"name", .text "ΣΑ", .endsWithIgnoreCase⟩ : Criterion).predicate .root).eval
        (namedDocument "ΟΣΑ") = .true := by
  have hattribute : (namedDocument "ΟΣΑ").attribute? ⟨.root, "name"⟩ = some (.text "ΟΣΑ") := rfl
  have hoccurs : Occurs true false "ΣΑ".toList "ΟΣΑ".toList ['Ο'] [] :=
    ⟨rfl, nofun, fun _ => rfl⟩
  have hsigmas : SigmasKept "ΣΑ".toList ['Ο'] [] := by
    intro x y hcut
    have hchars : "ΣΑ".toList = ['Σ', 'Α'] := rfl
    rw [hchars] at hcut
    cases x with
    | nil =>
      obtain ⟨-, rfl⟩ := List.cons.inj hcut
      decide +kernel
    | cons c x =>
      have hrest : 'Σ' ∈ ['Α'] := by
        rw [(List.cons.inj hcut).2]
        exact List.mem_append_right x List.mem_cons_self
      exact absurd hrest (by decide)
  obtain ⟨heach, -⟩ := ignoringCase_keeps_match hattribute (v := "ΣΑ") ⟨by decide, by decide⟩
  obtain ⟨hends, hignoring⟩ := heach _ _ _ _ .endsWith
  exact ⟨hends.mpr ⟨_, _, hoccurs⟩, hignoring _ _ hoccurs hsigmas⟩

/-- The sigma ends a word of the name, but not of the value, and takes two forms. -/
theorem ignoringCase_loses_match :
    Literal "Σ".toList ∧
      ((⟨"name", .text "Σ", .contains⟩ : Criterion).predicate .root).eval (namedDocument "ΑΣ") =
        .true ∧
      ((⟨"name", .text "Σ", .containsIgnoreCase⟩ : Criterion).predicate .root).eval
        (namedDocument "ΑΣ") = .false ∧
      ((⟨"name", .text "Σ", .notContainsIgnoreCase⟩ : Criterion).predicate .root).eval
        (namedDocument "ΑΣ") = .true ∧
      ((⟨"name", .text "Σ", .notContains⟩ : Criterion).predicate .root).eval
        (namedDocument "ΑΣ") = .false := by
  refine ⟨⟨by decide, by decide⟩, ?_, ?_, ?_, ?_⟩ <;> decide +kernel

end Criterion

end Criteria
