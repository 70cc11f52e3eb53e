import Criteria.Proofs.Store.Reordering

/-!
# The rows of an answer

The rows of an answer are the documents of the store in their order, each as often as it has hits,
or once at most in a distinct query. So the first row is the first document with a hit. Without
joins a document has one hit at most, and such a query cannot fail once its criteria are accepted.

## Main definitions

- `Filter.truthOn`: the truth of a filter on a document

## Main statements

- `Store.head?_of_outcome_findAll_eq_ok`: the first row of an answer
- `Store.outcome_findAll_of_joins_eq_nil`: the answer to a query without joins
- `Store.outcome_run_congr`: conditions with the same checks and truths have the same answers
- `Store.outcome_findAll_congr`: a filter with the same checks and truths has the same answer
-/

namespace Criteria

/-- The truth of a filter on a document. -/
def Filter.truthOn (f : Filter) (document : Json) : Truth :=
  (Truth.all (truthsOn (some document) f.criteria)).and
    (Truth.all (Truth.pool (truthsOn (some document) f.alternatives)))

theorem truthsOn_singleton {c : Criterion} (h : c.isSkipped = false) (row : Option Json) :
    truthsOn row [c] = [c.truthOn row] := by
  simp [truthsOn, h]

theorem Filter.truthOn_singleton {c : Criterion} (h : c.isSkipped = false) (document : Json) :
    ({ criteria := [c] } : Filter).truthOn document = c.truthOn (some document) := by
  simp only [truthOn, truthsOn_singleton h, alternatives]
  simp [truthsOn, Truth.pool]

namespace Condition

variable {c : Condition}

theorem consulted_of_joins_eq_nil (h : c.joins = []) : c.consulted = c.filter.consulted := by
  rw [consulted, visits, h]
  exact List.append_nil _

theorem traversals_plan_of_joins_eq_nil (h : c.joins = []) (purpose : Purpose) :
    (c.plan purpose).traversals = [] := by
  rw [plan, visits, h]
  rfl

theorem eval_plan_of_joins_eq_nil (h : c.joins = []) (purpose : Purpose) (document : Json)
    (binding : Binding) :
    (c.plan purpose).predicate.eval ⟨document, binding⟩ = c.filter.truthOn document := by
  have hvisits : c.plainVisits = [] := by
    rw [plainVisits, h]
    rfl
  rw [eval_plan, hvisits]
  exact Truth.and_true _

/-- Without joins a document has one binding, which is empty. -/
theorem hits_plan_of_joins_eq_nil (h : c.joins = []) (purpose : Purpose) (document : Json) :
    (c.plan purpose).hits document = if c.filter.truthOn document = .true then 1 else 0 := by
  have hone : document.allBindings [] = [[]] := rfl
  rw [Plan.hits, traversals_plan_of_joins_eq_nil h, hone, List.countP_singleton,
    eval_plan_of_joins_eq_nil h, Truth.isTrue_eq_decide]
  simp only [decide_eq_true_eq]

/-- A plan without joins has a selection under every limit. -/
theorem exists_select_of_joins_eq_nil (h : c.joins = []) (purpose : Purpose) (limit : Nat)
    (documents : List Json) :
    ∃ found, (c.plan purpose).select limit documents = .ok found := by
  have hbindings (document : Json) :
      document.bindings? (c.plan purpose).traversals (max limit 1) = .ok [[]] := by
    rw [traversals_plan_of_joins_eq_nil h]
    rfl
  rw [Plan.select_eq]
  exact ⟨_, Plan.selectBy_eq_ok fun document _ => Plan.counts_of_bindings? (hbindings document)⟩

end Condition

namespace Store

variable {c : Condition}

/-- The first row of an answer is the first document with a hit. -/
theorem head?_of_outcome_findAll_eq_ok {s : Store} {rows : List Json}
    (h : (s.findAll c).outcome = .ok rows) :
    rows.head? = s.documents.find? fun document => 0 < (c.plan .documents).hits document := by
  obtain ⟨found, -, hselect, rfl⟩ := exists_select_of_outcome_run_eq_ok h
  exact Plan.head?_documents_select hselect

/-- A query without joins filters the documents, if its criteria are accepted. -/
theorem outcome_findAll_of_joins_eq_nil (hjoins : c.joins = [])
    (haccepted : ∀ k ∈ c.filter.consulted, k.Accepted) (s : Store) :
    (s.findAll c).outcome =
      .ok (s.documents.filter fun document => c.filter.truthOn document = .true) := by
  have hcompile : c.compile .documents = .ok (c.plan .documents) := by
    apply Condition.compile_eq_ok_of_accepted
    rwa [Condition.consulted_of_joins_eq_nil hjoins]
  obtain ⟨found, hselect⟩ := Condition.exists_select_of_joins_eq_nil hjoins .documents
    s.settings.bindingLimit s.documents
  have hhits (document : Json) : (c.plan .documents).hits document =
      if c.filter.truthOn document = .true then 1 else 0 :=
    Condition.hits_plan_of_joins_eq_nil hjoins .documents document
  have hcopies (document : Json) :
      (c.plan .documents).copies ((c.plan .documents).hits document) ≤ 1 := by
    rw [hhits, Plan.copies]
    split <;> split <;> decide
  have hpos (document : Json) : 0 < (c.plan .documents).hits document ↔
      c.filter.truthOn document = .true := by
    rw [hhits]
    split <;> simp_all
  rw [findAll, outcome_run_of_compile_eq_ok hcompile, hselect]
  show Except.ok found.documents = _
  simp only [Plan.documents_select_of_le_one hcopies hselect, hpos]

/-- Conditions that are checked with the same outcome have the same answers, if their plans have
the same traversals and their predicates the same truth. -/
theorem outcome_run_congr {c' : Condition} {purpose : Purpose}
    (hchecks : checkActives c'.consulted = checkActives c.consulted)
    (htraversals : (c'.plan purpose).traversals = (c.plan purpose).traversals)
    (hdistinct : c'.distinct = c.distinct)
    (heval : ∀ scope, (c'.plan purpose).predicate.eval scope =
      (c.plan purpose).predicate.eval scope) (s : Store) :
    (s.run c' purpose).outcome = (s.run c purpose).outcome := by
  have hselect : (c'.plan purpose).select s.settings.bindingLimit s.documents =
      (c.plan purpose).select s.settings.bindingLimit s.documents :=
    Plan.selectWith_congr (PatternEngine.standard_usable _) (PatternEngine.standard_usable _)
      htraversals hdistinct heval _ _
  rw [outcome_run, outcome_run, Condition.compile_eq, Condition.compile_eq, hchecks]
  cases checkActives c.consulted with
  | error e => rfl
  | ok u =>
    show ((Plan.select _ _ _).mapError _).map _ = _
    rw [hselect]
    rfl

/-- Another filter on documents does not change an answer, if it is checked with the same outcome
and has the same truth. -/
theorem outcome_findAll_congr (c : Condition) {f : Filter}
    (hcheck : checkActives f.consulted = checkActives c.filter.consulted)
    (htruth : ∀ document, f.truthOn document = c.filter.truthOn document) (s : Store) :
    (s.findAll { c with filter := f }).outcome = (s.findAll c).outcome := by
  let c' : Condition := { c with filter := f }
  have heval (scope : Scope) : (c'.plan .documents).predicate.eval scope =
      (c.plan .documents).predicate.eval scope := by
    have hroot := htruth scope.document
    unfold Filter.truthOn at hroot
    rw [Condition.eval_plan, Condition.eval_plan, hroot]
    rfl
  have hchecks : checkActives c'.consulted = checkActives c.consulted := by
    rw [Condition.consulted, Condition.consulted, checkActives_append, checkActives_append, hcheck]
    rfl
  exact outcome_run_congr hchecks rfl rfl heval s

end Store

end Criteria
