import Criteria.Proofs.Bindings.Unlimited
import Mathlib.Data.List.Induction

/-!
# The limit on bindings

The limit is looked at after a binding that has rows along a traversal, and not after one that
is kept without rows. What counts at a traversal are therefore the bindings up to the last one
that has rows, and those that are kept after it may go beyond the limit.

## Main definitions

- `Traversal.Overruns`: the bindings up to one that has rows extend to more than the limit

## Main statements

- `Json.bindings?_eq_error_iff`: when a document has too many bindings
- `Json.bindings?_limit`: how the limit compares with the number of bindings
-/

namespace Criteria

/-- A list is parted at its first element or at a later one. -/
private theorem exists_parted_cons_iff {α : Type} {P : List α → α → List α → Prop} {first : α}
    {rest : List α} :
    (∃ before x after, first :: rest = before ++ x :: after ∧ P before x after) ↔
      P [] first rest ∨
        ∃ before x after, rest = before ++ x :: after ∧ P (first :: before) x after := by
  constructor
  · rintro ⟨before, x, after, heq, h⟩
    rcases before with - | ⟨y, before⟩
    · obtain ⟨rfl, rfl⟩ := List.cons_eq_cons.mp heq
      exact .inl h
    · obtain ⟨rfl, rfl⟩ := List.cons_eq_cons.mp heq
      exact .inr ⟨before, x, after, rfl, h⟩
  · rintro (h | ⟨before, x, after, rfl, h⟩)
    · exact ⟨[], first, rest, rfl, h⟩
    · exact ⟨first :: before, x, after, rfl, h⟩

namespace Traversal

variable {t : Traversal} {limit : Nat} {document : Json} {bindings : List Binding}

/-- The bindings up to one that has rows along a traversal extend to more than a limit. -/
def Overruns (t : Traversal) (limit : Nat) (document : Json) (bindings : List Binding) : Prop :=
  ∃ before binding after, bindings = before ++ binding :: after ∧
    t.rows document binding ≠ [] ∧
    limit < ((before ++ [binding]).flatMap (t.extensions document)).length

/-- Along one traversal there are too many bindings if their number goes beyond the limit at a
binding with rows. The induction is on the bindings, with any number of them counted before. -/
theorem extendAll_eq_error_iff {count : Nat} {e : ExecutionError} :
    t.extendAll limit document count bindings = .error e ↔
      e = .tooManyBindings limit ∧
        ∃ before binding after, bindings = before ++ binding :: after ∧
          t.rows document binding ≠ [] ∧
          limit < count + ((before ++ [binding]).flatMap (t.extensions document)).length := by
  induction bindings generalizing count with
  | nil => simp [extendAll]
  | cons first rest ih =>
    rw [exists_parted_cons_iff]
    by_cases hfirst : t.rows document first ≠ [] ∧
        limit < count + (([] ++ [first]).flatMap (t.extensions document)).length
    · have hlimit : limit < count + (t.extensions document first).length := by
        simpa using hfirst.2
      have herror : t.extendAll limit document count (first :: rest) =
          .error (.tooManyBindings limit) := by
        simp [extendAll, hlimit, hfirst.1]
      rw [herror]
      constructor
      · intro h
        cases h
        exact ⟨rfl, .inl hfirst⟩
      · rintro ⟨rfl, -⟩
        rfl
    · -- the first binding passes, so it is the others that decide
      have hrest : t.extendAll limit document count (first :: rest) = .error e ↔
          t.extendAll limit document (count + (t.extensions document first).length) rest =
            .error e := by
        have hpasses : ¬ (decide (limit < count + (t.extensions document first).length) &&
            !(t.rows document first).isEmpty) = true := by
          simpa [List.isEmpty_iff, and_comm] using hfirst
        rw [extendAll, if_neg hpasses]
        cases t.extendAll limit document (count + (t.extensions document first).length) rest with
        | error e' => exact Iff.rfl
        | ok others =>
          constructor <;>
          · intro h
            cases h
      rw [hrest, ih, or_iff_right hfirst]
      simp only [List.cons_append, List.flatMap_cons, List.length_append, Nat.add_assoc]

/-- Bindings that come later do not undo an overrun. -/
theorem Overruns.append (h : t.Overruns limit document bindings) (more : List Binding) :
    t.Overruns limit document (bindings ++ more) := by
  obtain ⟨before, binding, after, rfl, hrows, hlimit⟩ := h
  exact ⟨before, binding, after ++ more, by simp, hrows, hlimit⟩

/-- An overrun is never reported without cause. -/
theorem Overruns.lt_length (h : t.Overruns limit document bindings) :
    limit < (bindings.flatMap (t.extensions document)).length := by
  obtain ⟨before, binding, after, rfl, -, hlimit⟩ := h
  rw [← List.singleton_append, ← List.append_assoc, List.flatMap_append, List.length_append]
  omega

theorem overruns_concat_of_rows {binding : Binding} (hrows : t.rows document binding ≠ [])
    (h : limit < ((bindings ++ [binding]).flatMap (t.extensions document)).length) :
    t.Overruns limit document (bindings ++ [binding]) :=
  ⟨bindings, binding, [], rfl, hrows, h⟩

theorem length_extensions_of_rows_eq_nil {binding : Binding}
    (hrows : t.rows document binding = []) :
    (t.extensions document binding).length = if t.kind.keepsUnmatched then 1 else 0 := by
  rw [extensions, hrows]
  cases t.kind.keepsUnmatched <;> rfl

/-- Without an overrun, the limit is exceeded by no more than the bindings without rows. The
induction goes from the last binding to the first, since it is the last that are not counted. -/
theorem length_le_of_not_overruns (h : ¬ t.Overruns limit document bindings) :
    (bindings.flatMap (t.extensions document)).length ≤
      limit + bindings.countP fun binding => (t.rows document binding).isEmpty := by
  induction bindings using List.reverseRecOn with
  | nil => simp
  | append_singleton before binding ih =>
    by_cases hrows : t.rows document binding = []
    · have hbefore := ih fun hbefore => h (hbefore.append [binding])
      have hlast : (t.extensions document binding).length ≤ 1 := by
        rw [length_extensions_of_rows_eq_nil hrows]
        split <;> omega
      simp only [List.flatMap_append, List.flatMap_singleton, List.length_append,
        List.countP_append, List.countP_singleton, hrows, List.isEmpty_nil, if_true]
      omega
    · have hlength := Nat.le_of_not_lt fun hlt => h (overruns_concat_of_rows hrows hlt)
      omega

/-- Where no binding is kept without rows, an overrun is a matter of numbers. -/
theorem overruns_iff_lt_length
    (h : ∀ binding ∈ bindings, t.kind.keepsUnmatched = true → t.rows document binding ≠ []) :
    t.Overruns limit document bindings ↔
      limit < (bindings.flatMap (t.extensions document)).length := by
  refine ⟨Overruns.lt_length, fun hlength => ?_⟩
  induction bindings using List.reverseRecOn with
  | nil => simp at hlength
  | append_singleton before binding ih =>
    by_cases hrows : t.rows document binding = []
    · have hkind : t.kind.keepsUnmatched = false := by
        have hlast := h binding (by simp)
        simpa [hrows] using hlast
      -- a binding that is dropped does not add to the number
      have hnone : (t.extensions document binding).length = 0 := by
        rw [length_extensions_of_rows_eq_nil hrows, hkind]
        rfl
      have hbefore : t.Overruns limit document before := by
        refine ih (fun b hb => h b (List.mem_append_left _ hb)) ?_
        simpa [hnone] using hlength
      exact hbefore.append [binding]
    · exact overruns_concat_of_rows hrows hlength

end Traversal

/-- Along several traversals there are too many bindings if there are at one of them. -/
theorem extendAlong_eq_error_iff {limit : Nat} {document : Json} {ts : List Traversal}
    {bindings : List Binding} {e : ExecutionError} :
    extendAlong limit document ts bindings = .error e ↔
      e = .tooManyBindings limit ∧ ∃ earlier t later, ts = earlier ++ t :: later ∧
        t.Overruns limit document
          (earlier.foldl (fun bs t => bs.flatMap (t.extensions document)) bindings) := by
  induction ts generalizing bindings with
  | nil => simp [extendAlong]
  | cons first rest ih =>
    have hfirst : first.Overruns limit document bindings ↔
        first.extendAll limit document 0 bindings = .error (.tooManyBindings limit) := by
      simp [Traversal.extendAll_eq_error_iff, Traversal.Overruns]
    rw [extendAlong]
    cases hextend : first.extendAll limit document 0 bindings with
    | error e' =>
      obtain ⟨rfl, -⟩ := Traversal.extendAll_eq_error_iff.mp hextend
      constructor
      · intro h
        cases h
        exact ⟨rfl, [], first, rest, rfl, hfirst.mpr hextend⟩
      · rintro ⟨rfl, -⟩
        rfl
    | ok extended =>
      have hnot : ¬ first.Overruns limit document bindings := by
        rw [hfirst, hextend]
        simp
      obtain rfl := Traversal.eq_flatMap_of_extendAll hextend
      rw [exists_parted_cons_iff, List.foldl_nil, or_iff_right hnot]
      exact ih

namespace Json

variable {document : Json} {ts : List Traversal} {limit : Nat}

/-- A document has too many bindings if it has at one of its traversals, and in no other way do
its bindings fail. -/
theorem bindings?_eq_error_iff {e : ExecutionError} :
    document.bindings? ts limit = .error e ↔
      e = .tooManyBindings limit ∧ ∃ earlier t later, ts = earlier ++ t :: later ∧
        t.Overruns limit document (document.allBindings earlier) :=
  extendAlong_eq_error_iff

theorem lt_length_allBindings_of_overruns {earlier : List Traversal} {t : Traversal}
    (h : t.Overruns limit document (document.allBindings earlier)) :
    limit < (document.allBindings (earlier ++ [t])).length := by
  rw [allBindings_concat]
  exact h.lt_length

/-- How the limit compares with the number of bindings of a document.

1. There are too many bindings if and only if they overrun the limit at one of the traversals,
   and this is the only way to fail.
2. If there are too many, then there are more than the limit along some of the first
   traversals.
3. Otherwise, the bindings along the first traversals exceed the limit by no more than those
   that have no rows along the last of them.
4. Where no binding is kept without rows, there are too many bindings if and only if there are
   more than the limit along some of the first traversals. -/
theorem bindings?_limit (document : Json) (ts : List Traversal) (limit : Nat) :
    (∀ e, document.bindings? ts limit = .error e ↔
      e = .tooManyBindings limit ∧ ∃ earlier t later, ts = earlier ++ t :: later ∧
        t.Overruns limit document (document.allBindings earlier)) ∧
    (∀ e, document.bindings? ts limit = .error e →
      ∃ earlier later, ts = earlier ++ later ∧ limit < (document.allBindings earlier).length) ∧
    (∀ bindings, document.bindings? ts limit = .ok bindings →
      ∀ earlier t later, ts = earlier ++ t :: later →
        (document.allBindings (earlier ++ [t])).length ≤
          limit + (document.allBindings earlier).countP
            fun binding => (t.rows document binding).isEmpty) ∧
    (1 ≤ limit →
      (∀ earlier t later, ts = earlier ++ t :: later → t.kind.keepsUnmatched = true →
        ∀ binding ∈ document.allBindings earlier, t.rows document binding ≠ []) →
      (document.bindings? ts limit = .error (.tooManyBindings limit) ↔
        ∃ earlier later, ts = earlier ++ later ∧
          limit < (document.allBindings earlier).length)) := by
  have hsound : ∀ e, document.bindings? ts limit = .error e →
      ∃ earlier later, ts = earlier ++ later ∧
        limit < (document.allBindings earlier).length := by
    intro e h
    obtain ⟨-, earlier, t, later, rfl, hoverruns⟩ := bindings?_eq_error_iff.mp h
    exact ⟨earlier ++ [t], later, by simp, lt_length_allBindings_of_overruns hoverruns⟩
  refine ⟨fun e => bindings?_eq_error_iff, hsound, ?_, ?_⟩
  · intro bindings h earlier t later hts
    rw [allBindings_concat]
    refine Traversal.length_le_of_not_overruns fun hoverruns => ?_
    have herror : document.bindings? ts limit = .error (.tooManyBindings limit) :=
      bindings?_eq_error_iff.mpr ⟨rfl, earlier, t, later, hts, hoverruns⟩
    rw [h] at herror
    cases herror
  · intro hlimit hrows
    refine ⟨hsound _, ?_⟩
    rintro ⟨earlier, later, hts, hlength⟩
    induction earlier using List.reverseRecOn with
    | nil =>
      -- along no traversals there is the empty binding only
      have hone : (document.allBindings []).length = 1 := rfl
      omega
    | append_singleton before t _ =>
      have hsplit : ts = before ++ t :: later := by rw [hts, List.append_assoc]; rfl
      rw [allBindings_concat] at hlength
      refine bindings?_eq_error_iff.mpr ⟨rfl, before, t, later, hsplit, ?_⟩
      refine (Traversal.overruns_iff_lt_length fun binding hbinding hkind => ?_).mpr hlength
      exact hrows before t later hsplit hkind binding hbinding

/-- The comments of a post and their tags. -/
def tagTraversals : List Traversal :=
  [⟨0, none, "comments", .left, .fetch⟩, ⟨1, some 0, "tags", .left, .fetch⟩]

/-- A post with two comments, of which the second has no tags. -/
def taggedPost : Json :=
  .object
    [("comments", .array [.object [("tags", .array [.bool true, .bool false])], .object []])]

/-- The two comments of the post are too many for a limit of one. -/
theorem bindings?_limit_taggedPost :
    taggedPost.bindings? (tagTraversals.take 1) 1 = .error (.tooManyBindings 1) := by
  obtain ⟨-, -, -, hexact⟩ := bindings?_limit taggedPost (tagTraversals.take 1) 1
  refine (hexact (Nat.le_refl 1) ?_).mpr ⟨tagTraversals.take 1, [], rfl, by decide⟩
  intro earlier t later hts _ binding hbinding
  rcases earlier with - | ⟨_, earlier⟩
  · cases hts
    obtain rfl := List.mem_singleton.mp hbinding
    decide
  · -- there is one traversal only
    have hlength := congrArg List.length hts
    simp [tagTraversals] at hlength

/-- A limit of two lets three bindings through, as the comment without tags comes last. -/
theorem bindings?_beyond_limit :
    (taggedPost.bindings? tagTraversals 2).map List.length = .ok 3 ∧
      ¬ (taggedPost.bindings? tagTraversals 2 = .error (.tooManyBindings 2) ↔
        ∃ earlier later, tagTraversals = earlier ++ later ∧
          2 < (taggedPost.allBindings earlier).length) := by
  have hlength : (taggedPost.bindings? tagTraversals 2).map List.length = .ok 3 := rfl
  refine ⟨hlength, fun h => ?_⟩
  have hmany : 2 < (taggedPost.allBindings tagTraversals).length := by decide
  have herror := h.mpr ⟨tagTraversals, [], rfl, hmany⟩
  rw [herror] at hlength
  cases hlength

end Json

end Criteria
