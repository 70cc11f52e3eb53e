import Criteria.Proofs.Text.Patterns
import Criteria.Text.Lowercase

/-!
# Lower-casing in its surroundings

The lower-case form of a character depends on its surroundings only if it is a capital sigma,
which becomes `ς` at the end of a word. So a part of a text is lower-cased as it is by itself, if
each of its sigmas ends a word in the text exactly if it ends one in the part. Runs of a pattern
are no part of a word, and leave the form of a value as it is.

## Main definitions

- `endsWord`: a sigma ends a word in its surroundings
- `lowerBetween`: the lower-case form of a part of a text
- `SigmasKept`: the sigmas of a value end the same words in a text as in the value alone

## Main statements

- `lowerChars_append`: the lower-case form of a text by its parts
- `lowerBetween_congr`: surroundings in which a part has the same lower-case form
- `lowerChars_framed`: the lower-case form of a pattern
- `Occurs.lowerChars`: a value that stands in a text, after both are lower-cased
-/

namespace Criteria.Text

/-- A sigma between some characters, of which those before it stand nearest first, ends a word. -/
def endsWord (before after : List Char) : Bool :=
  startsCased before && !startsCased after

/-- The lower-case form of a character in its surroundings. -/
def lowerAt (before : List Char) (c : Char) (after : List Char) : List Char :=
  if c = 'Σ' then if endsWord before after then ['ς'] else ['σ'] else lowerChar c

/-- The lower-case form of a part of a text, from what follows the part and what stands before
it, nearest first. -/
def lowerBetween (after : List Char) : List Char → List Char → List Char
  | _, [] => []
  | before, c :: rest =>
    lowerAt before c (rest ++ after) ++ lowerBetween after (c :: before) rest

theorem lowerAfter_append (before cs after : List Char) : lowerAfter before (cs ++ after) =
    lowerBetween after before cs ++ lowerAfter (cs.reverse ++ before) after := by
  induction cs generalizing before with
  | nil => rfl
  | cons c rest ih =>
    show lowerAt before c (rest ++ after) ++ lowerAfter (c :: before) (rest ++ after) = _
    rw [ih, lowerBetween, List.reverse_cons, List.append_assoc, List.append_assoc]
    rfl

theorem lowerChars_eq (cs : List Char) : lowerChars cs = lowerBetween [] [] cs := by
  have happend := lowerAfter_append [] cs []
  rw [List.append_nil] at happend
  rw [lowerChars, happend, lowerAfter, List.append_nil]

/-- The three parts of a text are lower-cased each in its surroundings. -/
theorem lowerChars_append (a cs b : List Char) : lowerChars (a ++ cs ++ b) =
    lowerBetween (cs ++ b) [] a ++ lowerBetween b a.reverse cs ++
      lowerAfter (cs.reverse ++ a.reverse) b := by
  rw [lowerChars, List.append_assoc, lowerAfter_append, lowerAfter_append, List.append_nil,
    List.append_assoc]

/-- A part of a text has the same lower-case form in surroundings in which its sigmas end words
alike. -/
theorem lowerBetween_congr {before before' after after' cs : List Char}
    (h : ∀ x y, cs = x ++ 'Σ' :: y →
      endsWord (x.reverse ++ before) (y ++ after) = endsWord (x.reverse ++ before') (y ++ after')) :
    lowerBetween after before cs = lowerBetween after' before' cs := by
  induction cs generalizing before before' with
  | nil => rfl
  | cons c rest ih =>
    have hhere : lowerAt before c (rest ++ after) = lowerAt before' c (rest ++ after') := by
      unfold lowerAt
      split
      · rename_i hsigma
        subst hsigma
        have hends := h [] rest rfl
        rw [List.reverse_nil, List.nil_append, List.nil_append] at hends
        rw [hends]
      · rfl
    -- the character joins what stands before the others, so their sigmas keep their places
    have hrest : lowerBetween after (c :: before) rest = lowerBetween after' (c :: before') rest :=
      ih fun x y hcut => by
        have hends := h (c :: x) y (by rw [hcut, List.cons_append])
        rwa [List.reverse_cons, List.append_assoc, List.append_assoc] at hends
    rw [lowerBetween, lowerBetween, hhere, hrest]

/-- Nothing counts beyond a character that is neither cased nor ignorable. -/
theorem startsCased_append_cons {c : Char} (hcased : isCased c = false)
    (hignorable : isCaseIgnorable c = false) (cs rest : List Char) :
    startsCased (cs ++ c :: rest) = startsCased cs := by
  induction cs with
  | nil => simp [startsCased, hcased, hignorable]
  | cons d cs ih =>
    unfold startsCased at ih ⊢
    rw [List.cons_append, List.dropWhile_cons, List.dropWhile_cons]
    by_cases hd : isCaseIgnorable d = true
    · rw [if_pos hd, if_pos hd]
      exact ih
    · rw [if_neg hd, if_neg hd]

theorem startsCased_append_runIf (cs : List Char) (more : Bool) :
    startsCased (cs ++ runIf more) = startsCased cs := by
  cases more with
  | true => exact startsCased_append_cons (by decide +kernel) (by decide +kernel) cs []
  | false => exact congrArg startsCased (List.append_nil cs)

/-- Runs have no lower-case form, and no word ends with them. -/
theorem lowerChars_framed (before after : Bool) (value : List Char) :
    lowerChars (framed before after value) = framed before after (lowerChars value) := by
  have hbefore : lowerBetween (value ++ runIf after) [] (runIf before) = runIf before := by
    cases before <;> rfl
  have hafter (context : List Char) : lowerAfter context (runIf after) = runIf after := by
    cases after <;> rfl
  have hreverse : (runIf before).reverse = runIf before := by
    cases before <;> rfl
  -- a run ends a word like the end of the text does
  have hvalue : lowerBetween (runIf after) (runIf before) value = lowerChars value := by
    rw [lowerChars_eq]
    refine lowerBetween_congr fun x y _ => ?_
    rw [endsWord, endsWord, startsCased_append_runIf, startsCased_append_runIf, List.append_nil,
      List.append_nil]
  rw [framed, lowerChars_append, hbefore, hafter, hreverse, hvalue, framed]

/-- Each capital sigma of a value that stands between two texts ends a word there exactly if it
ends a word of the value by itself. -/
def SigmasKept (value a b : List Char) : Prop :=
  ∀ x y, value = x ++ 'Σ' :: y → endsWord (x.reverse ++ a.reverse) (y ++ b) = endsWord x.reverse y

theorem sigmasKept_of_not_mem {value : List Char} (h : 'Σ' ∉ value) (a b : List Char) :
    SigmasKept value a b := by
  rintro x y rfl
  exact absurd (List.mem_append_right x List.mem_cons_self) h

/-- A value that stands in a text does so after both are lower-cased, if its sigmas are kept. -/
theorem Occurs.lowerChars {before after : Bool} {value text a b : List Char}
    (h : Occurs before after value text a b) (hkept : SigmasKept value a b) :
    ∃ a' b', Occurs before after (lowerChars value) (lowerChars text) a' b' := by
  have hvalue : lowerBetween b a.reverse value = Text.lowerChars value := by
    rw [lowerChars_eq]
    refine lowerBetween_congr fun x y hcut => ?_
    rw [List.append_nil, List.append_nil]
    exact hkept x y hcut
  refine ⟨lowerBetween (value ++ b) [] a, lowerAfter (value.reverse ++ a.reverse) b, ?_, ?_, ?_⟩
  · rw [← h.cut, lowerChars_append, hvalue]
  · intro hbefore
    rw [h.start hbefore, lowerBetween]
  · intro hafter
    rw [h.stop hafter, lowerAfter]

end Criteria.Text
