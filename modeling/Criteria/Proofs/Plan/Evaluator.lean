import Criteria.Proofs.Text.Regex
import Criteria.Selection

/-!
# What has been prepared changes nothing

An evaluator that holds nothing but what its engine prepares is faithful. A computation that
starts with a faithful evaluator ends with one, and its outcome does not depend on which
patterns are held. So one evaluator may serve all documents of a selection.

## Main definitions

- `Evaluator.Faithful`: the tests that are held are those of the engine
- `Evaluator.Yields`: the outcome of a computation with any faithful evaluator
- `PatternEngine.Usable`: the engine refuses no pattern of a plan
- `Plan.counts`: the bindings of a document and the true ones among them
- `Plan.selectBy`: a selection by the counts of each document

## Main statements

- `Evaluator.stable_evaluate`: the truth of a predicate does not depend on what is held
- `Evaluator.yields_evaluate`: with a usable engine it is the truth of the predicate
- `Plan.selectWith_eq_selectBy_fresh`: a new evaluator for each document selects the same
- `Plan.selectWith_eq_selectBy_counts`: a selection without evaluators
-/

namespace Criteria

/-- The engine tests a text against a pattern as the pattern says. -/
def PatternEngine.Tests (engine : PatternEngine) (pattern : String) : Prop :=
  ∃ test, engine.prepare pattern = .ok test ∧ ∀ text, test text = Text.isLike text pattern

/-- The engine tests texts against all patterns of a plan. -/
def PatternEngine.Usable (engine : PatternEngine) (p : Plan) : Prop :=
  ∀ operand pattern, .like operand pattern ∈ p.predicate.comparisons → engine.Tests pattern

/-- Patterns are tested as they say by an engine for regular expressions, if it finds what its
documentation says and does not refuse the expression. -/
theorem PatternEngine.tests_ofRegexes {engine : Text.RegexEngine} (h : engine.Documented)
    {pattern : String} {test : String → Bool}
    (hcompile : engine.compile (Text.likeRegex pattern) = .ok test) :
    (ofRegexes engine).Tests pattern :=
  ⟨test, hcompile, h.test_eq hcompile⟩

theorem PatternEngine.standard_tests (pattern : String) : standard.Tests pattern :=
  tests_ofRegexes Text.RegexEngine.standard_documented
    (Text.RegexEngine.standard_compile_of_read (Text.readRegex?_likeRegex pattern))

theorem PatternEngine.standard_usable (p : Plan) : standard.Usable p :=
  fun _ pattern _ => standard_tests pattern

namespace Evaluator

variable {engine : PatternEngine} {α β : Type}

/-- Every pattern that is held has the test that the engine prepares. -/
def Faithful (engine : PatternEngine) (e : Evaluator) : Prop :=
  ∀ pattern test, e.prepared.lookup pattern = some test → engine.prepare pattern = .ok test

theorem faithful_empty : Faithful engine {} := by
  intro pattern test h
  cases h

/-- With every faithful evaluator a computation has a given outcome, and leaves the evaluator
faithful. -/
def Yields (engine : PatternEngine) (x : Evaluating α) (outcome : Except ExecutionError α) :
    Prop :=
  ∀ e, Faithful engine e →
    (x.run e).map Prod.fst = outcome ∧ ∀ a e', x.run e = .ok (a, e') → Faithful engine e'

/-- The outcome of a computation does not depend on what a faithful evaluator holds. -/
def Stable (engine : PatternEngine) (x : Evaluating α) : Prop :=
  ∃ outcome, Yields engine x outcome

theorem Yields.stable {x : Evaluating α} {outcome : Except ExecutionError α}
    (h : Yields engine x outcome) : Stable engine x :=
  ⟨outcome, h⟩

/-- The outcome is the one with an evaluator that holds nothing. -/
theorem Yields.run'_empty {x : Evaluating α} {outcome : Except ExecutionError α}
    (h : Yields engine x outcome) : x.run' {} = outcome :=
  (h {} faithful_empty).1

theorem Stable.yields {x : Evaluating α} (h : Stable engine x) : Yields engine x (x.run' {}) := by
  obtain ⟨outcome, h⟩ := h
  rwa [h.run'_empty]

theorem yields_pure (a : α) : Yields engine (pure a) (.ok a) := by
  intro e he
  refine ⟨rfl, fun b e' h => ?_⟩
  cases h
  exact he

/-- A computation that does not look at the evaluator. -/
theorem yields_lift (x : Except ExecutionError α) :
    Yields engine (liftM x : Evaluating α) x := by
  intro e he
  cases x with
  | error err => exact ⟨rfl, fun a e' h => by cases h⟩
  | ok a => exact yields_pure a e he

/-- One computation after another. The second starts with the evaluator that the first has
left. -/
theorem Yields.bind {x : Evaluating α} {f : α → Evaluating β} {outcome : Except ExecutionError α}
    {outcomes : α → Except ExecutionError β} (hx : Yields engine x outcome)
    (hf : ∀ a, outcome = .ok a → Yields engine (f a) (outcomes a)) :
    Yields engine (x >>= f) (outcome.bind outcomes) := by
  intro e he
  obtain ⟨hfirst, hleft⟩ := hx e he
  have hrun : (x >>= f).run e = (x.run e).bind fun (a, e') => (f a).run e' := rfl
  rw [hrun]
  cases hstep : x.run e with
  | error err =>
    rw [hstep] at hfirst
    subst hfirst
    exact ⟨rfl, fun b e' h => by cases h⟩
  | ok reached =>
    obtain ⟨a, e'⟩ := reached
    rw [hstep] at hfirst
    subst hfirst
    exact hf a rfl e' (hleft a e' hstep)

/-- A computation after one that succeeds. -/
theorem Yields.bind_ok {x : Evaluating α} {f : α → Evaluating β} {a : α}
    {outcome : Except ExecutionError β} (hx : Yields engine x (.ok a))
    (hf : Yields engine (f a) outcome) : Yields engine (x >>= f) outcome := by
  show Yields engine (x >>= f) ((Except.ok a).bind fun _ => outcome)
  refine hx.bind fun b hb => ?_
  cases hb
  exact hf

theorem Stable.bind {x : Evaluating α} {f : α → Evaluating β} (hx : Stable engine x)
    (hf : ∀ a, Stable engine (f a)) : Stable engine (x >>= f) := by
  obtain ⟨outcome, hx⟩ := hx
  exact (hx.bind fun a _ => (hf a).yields).stable

theorem stable_pure (a : α) : Stable engine (pure a) :=
  (yields_pure a).stable

/-- A pattern has the test that the engine prepares, whether it is held or not. -/
theorem yields_matcher (engine : PatternEngine) (pattern : String) :
    Yields engine (matcher engine pattern)
      ((engine.prepare pattern).mapError (.unusablePattern pattern)) := by
  intro e he
  cases hlookup : e.prepared.lookup pattern with
  | some test =>
    have hrun : (matcher engine pattern).run e = .ok (test, e) := by
      simp only [StateT.run, matcher, hlookup]
    rw [hrun, he pattern test hlookup]
    refine ⟨rfl, fun a e' h => ?_⟩
    cases h
    exact he
  | none =>
    cases hprepare : engine.prepare pattern with
    | error reason =>
      have hrun : (matcher engine pattern).run e = .error (.unusablePattern pattern reason) := by
        simp only [StateT.run, matcher, hlookup, hprepare]
      rw [hrun]
      exact ⟨rfl, fun a e' h => by cases h⟩
    | ok test =>
      have hrun : (matcher engine pattern).run e =
          .ok (test, { e with prepared := (pattern, test) :: e.prepared }) := by
        simp only [StateT.run, matcher, hlookup, hprepare]
      rw [hrun]
      refine ⟨rfl, fun a e' h => ?_⟩
      cases h
      -- what is held now is what was held and the new pattern
      intro other test' hother
      by_cases hsame : other = pattern
      · subst hsame
        rw [List.lookup_cons_self] at hother
        cases hother
        exact hprepare
      · rw [List.lookup_cons, beq_eq_false_iff_ne.mpr hsame] at hother
        exact he other test' hother

theorem stable_compare (s : Scope) (c : Comparison) : Stable engine (compare engine s c) := by
  cases c with
  | like o pattern =>
    rw [compare]
    split
    · exact stable_pure _
    · exact (yields_matcher engine pattern).stable.bind fun test => stable_pure _
  | _ => exact stable_pure _

mutual

/-- The truth of a predicate does not depend on what the evaluator holds. -/
theorem stable_evaluate (s : Scope) (q : Predicate) : Stable engine (evaluate engine s q) := by
  cases q with
  | always =>
    rw [evaluate]
    exact stable_pure _
  | and members =>
    rw [evaluate]
    exact stable_evaluateAll s .true members
  | or members =>
    rw [evaluate]
    exact stable_evaluateAny s .false members
  | not member =>
    rw [evaluate]
    exact (stable_evaluate s member).bind fun truth => stable_pure _
  | compare c =>
    rw [evaluate]
    exact stable_compare s c

theorem stable_evaluateAll (s : Scope) (truth : Truth) (members : List Predicate) :
    Stable engine (evaluateAll engine s truth members) := by
  cases members with
  | nil =>
    rw [evaluateAll]
    exact stable_pure _
  | cons member rest =>
    rw [evaluateAll]
    refine (stable_evaluate s member).bind fun next => ?_
    split
    · exact stable_pure _
    · exact stable_evaluateAll s _ rest

theorem stable_evaluateAny (s : Scope) (truth : Truth) (members : List Predicate) :
    Stable engine (evaluateAny engine s truth members) := by
  cases members with
  | nil =>
    rw [evaluateAny]
    exact stable_pure _
  | cons member rest =>
    rw [evaluateAny]
    refine (stable_evaluate s member).bind fun next => ?_
    split
    · exact stable_pure _
    · exact stable_evaluateAny s _ rest

end

theorem yields_compare {c : Comparison} (s : Scope)
    (h : ∀ operand pattern, .like operand pattern = c → engine.Tests pattern) :
    Yields engine (compare engine s c) (.ok (c.eval s)) := by
  cases c with
  | like o pattern =>
    obtain ⟨test, hprepare, htest⟩ := h o pattern rfl
    have hmatcher := yields_matcher engine pattern
    rw [hprepare] at hmatcher
    rw [compare, Comparison.eval, truthOfLike]
    cases (s.operand? o).bind (·.likeText?) with
    | none => exact yields_pure _
    | some text =>
      simp only [← htest]
      exact hmatcher.bind_ok (yields_pure _)
  | _ => exact yields_pure _

mutual

/-- With an engine that refuses no pattern of a predicate, the evaluator finds its truth. -/
theorem yields_evaluate (s : Scope) (q : Predicate)
    (h : ∀ operand pattern, .like operand pattern ∈ q.comparisons → engine.Tests pattern) :
    Yields engine (evaluate engine s q) (.ok (q.eval s)) := by
  cases q with
  | always =>
    rw [evaluate, Predicate.eval]
    exact yields_pure _
  | and members =>
    rw [evaluate, Predicate.eval]
    exact yields_evaluateAll s .true members h
  | or members =>
    rw [evaluate, Predicate.eval]
    exact yields_evaluateAny s .false members h
  | not member =>
    rw [evaluate, Predicate.eval]
    exact (yields_evaluate s member h).bind_ok (yields_pure _)
  | compare c =>
    rw [evaluate, Predicate.eval]
    exact yields_compare s fun o pattern hc => h o pattern (by simp [Predicate.comparisons, hc])

theorem yields_evaluateAll (s : Scope) (truth : Truth) (members : List Predicate)
    (h : ∀ operand pattern, .like operand pattern ∈ Predicate.comparisonsOf members →
      engine.Tests pattern) :
    Yields engine (evaluateAll engine s truth members)
      (.ok (Predicate.evalAll s truth members)) := by
  cases members with
  | nil =>
    rw [evaluateAll, Predicate.evalAll]
    exact yields_pure _
  | cons member rest =>
    rw [Predicate.comparisonsOf] at h
    have hmember := yields_evaluate s member fun o pattern hc =>
      h o pattern (List.mem_append_left _ hc)
    have hrest (truth : Truth) := yields_evaluateAll s truth rest fun o pattern hc =>
      h o pattern (List.mem_append_right _ hc)
    rw [evaluateAll, Predicate.evalAll]
    refine hmember.bind_ok ?_
    generalize truth.and (member.eval s) = reached
    cases reached with
    | false => exact yields_pure _
    | _ => exact hrest _

theorem yields_evaluateAny (s : Scope) (truth : Truth) (members : List Predicate)
    (h : ∀ operand pattern, .like operand pattern ∈ Predicate.comparisonsOf members →
      engine.Tests pattern) :
    Yields engine (evaluateAny engine s truth members)
      (.ok (Predicate.evalAny s truth members)) := by
  cases members with
  | nil =>
    rw [evaluateAny, Predicate.evalAny]
    exact yields_pure _
  | cons member rest =>
    rw [Predicate.comparisonsOf] at h
    have hmember := yields_evaluate s member fun o pattern hc =>
      h o pattern (List.mem_append_left _ hc)
    have hrest (truth : Truth) := yields_evaluateAny s truth rest fun o pattern hc =>
      h o pattern (List.mem_append_right _ hc)
    rw [evaluateAny, Predicate.evalAny]
    refine hmember.bind_ok ?_
    generalize truth.or (member.eval s) = reached
    cases reached with
    | true => exact yields_pure _
    | _ => exact hrest _

end

theorem stable_countTrue (q : Predicate) (document : Json) (count : Nat)
    (bindings : List Binding) : Stable engine (countTrue engine q document count bindings) := by
  induction bindings generalizing count with
  | nil => exact stable_pure count
  | cons binding rest ih => exact (stable_evaluate _ q).bind fun truth => ih _

theorem yields_countTrue {q : Predicate}
    (h : ∀ operand pattern, .like operand pattern ∈ q.comparisons → engine.Tests pattern)
    (document : Json) (count : Nat) (bindings : List Binding) :
    Yields engine (countTrue engine q document count bindings)
      (.ok (count + bindings.countP fun binding => (q.eval ⟨document, binding⟩).isTrue)) := by
  induction bindings generalizing count with
  | nil => exact yields_pure count
  | cons binding rest ih =>
    rw [countTrue, List.countP_cons, Nat.add_comm _ (ite _ _ _), ← Nat.add_assoc]
    refine (yields_evaluate _ q h).bind_ok ?_
    split
    · exact ih (count + 1)
    · exact ih count

end Evaluator

namespace Plan

open Evaluator

variable {engine : PatternEngine} {p : Plan} {limit : Nat}

/-- The number of bindings of a document, and of those under which the predicate is true, by
the truth of the predicate. -/
def counts (p : Plan) (limit : Nat) (document : Json) : Except ExecutionError (Nat × Nat) := do
  let bindings ← document.bindings? p.traversals limit
  return (bindings.length,
    bindings.countP fun binding => (p.predicate.eval ⟨document, binding⟩).isTrue)

/-- The selection of a list of documents by the counts of each of them. -/
def selectBy (p : Plan) (counts : Json → Except ExecutionError (Nat × Nat)) (found : List Json)
    (scanned evaluated : Nat) : List Json → Except ExecutionError Selection
  | [] => .ok ⟨found.reverse, scanned, evaluated⟩
  | document :: rest => do
    let (bindings, satisfied) ← counts document
    selectBy p counts (List.replicate (p.copies satisfied) document ++ found)
      (scanned + 1) (evaluated + bindings) rest

theorem stable_satisfied (document : Json) :
    Stable engine (p.satisfied engine limit document) :=
  (yields_lift _).stable.bind fun bindings =>
    (stable_countTrue p.predicate document 0 bindings).bind fun _ => stable_pure _

theorem yields_satisfied (h : engine.Usable p) (document : Json) :
    Yields engine (p.satisfied engine limit document) (p.counts limit document) := by
  refine (yields_lift _).bind fun bindings _ => ?_
  refine (yields_countTrue h document 0 bindings).bind_ok ?_
  rw [Nat.zero_add]
  exact yields_pure _

/-- If the counts of each document are found, the selection is the one by these counts. -/
theorem yields_selectAfter {counts : Json → Except ExecutionError (Nat × Nat)}
    (h : ∀ document, Yields engine (p.satisfied engine limit document) (counts document))
    (found : List Json) (scanned evaluated : Nat) (documents : List Json) :
    Yields engine (p.selectAfter engine limit found scanned evaluated documents)
      (p.selectBy counts found scanned evaluated documents) := by
  induction documents generalizing found scanned evaluated with
  | nil => exact yields_pure _
  | cons document rest ih => exact (h document).bind fun reached _ => ih _ _ _

/-- A new evaluator for each document selects the same. -/
theorem selectWith_eq_selectBy_fresh (engine : PatternEngine) (p : Plan) (limit : Nat)
    (documents : List Json) :
    p.selectWith engine limit documents =
      p.selectBy (fun document => (p.satisfied engine (max limit 1) document).run' {}) [] 0 0
        documents :=
  (yields_selectAfter (fun document => (stable_satisfied document).yields) [] 0 0
    documents).run'_empty

/-- With an engine that refuses no pattern of the plan, a selection needs no evaluator. -/
theorem selectWith_eq_selectBy_counts (h : engine.Usable p) (limit : Nat)
    (documents : List Json) :
    p.selectWith engine limit documents =
      p.selectBy (p.counts (max limit 1)) [] 0 0 documents :=
  (yields_selectAfter (yields_satisfied h) [] 0 0 documents).run'_empty

theorem acceptsWith_eq_counts (h : engine.Usable p) (limit : Nat) (document : Json) :
    p.acceptsWith engine limit document =
      (p.counts (max limit 1) document).map fun (_, satisfied) => decide (0 < satisfied) := by
  rw [acceptsWith, (yields_satisfied h document).run'_empty]
  cases p.counts (max limit 1) document <;> rfl

theorem select_eq (p : Plan) (limit : Nat) (documents : List Json) :
    p.select limit documents = p.selectBy (p.counts (max limit 1)) [] 0 0 documents :=
  selectWith_eq_selectBy_counts (PatternEngine.standard_usable p) limit documents

end Plan

end Criteria
