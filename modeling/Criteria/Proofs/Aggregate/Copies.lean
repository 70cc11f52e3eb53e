import Criteria.Proofs.Aggregate.Extremes
import Criteria.Proofs.Aggregate.Results
import Criteria.Proofs.Store.Failure

/-!
# Aggregates over repeated rows

A query that is not distinct returns a document as often as the joins give it a hit, one copy right
behind the other. A search for an extreme value and a count of different values do the same with a
second copy as they have done with the first, that is nothing, so they do not see how often a
document is returned.

## Main definitions

- `Repeats`: a list in which each element of another one is repeated on the spot
- `AggregateKind.IgnoresCopies`: counts of different values, least and greatest values

## Main statements

- `Repeats.foldl_eq`: a pass that ignores a repeated element ignores all copies
- `Store.run_repeats`: the rows of a query, distinct or not
- `Store.aggregate_distinct`: such aggregates are the same whether the query is distinct or not
-/

namespace Criteria

/-- The second list has the elements of the first one, each of them repeated on the spot. -/
inductive Repeats {α : Type} : List α → List α → Prop
  | nil : Repeats [] []
  | cons (a : α) (n : Nat) {list copies : List α} (h : Repeats list copies) :
      Repeats (a :: list) (List.replicate (n + 1) a ++ copies)

namespace Repeats

section Lists

variable {α β : Type} {list copies : List α}

/-- Elements that are repeated a number of times are copies of those that are repeated at all. -/
theorem flatMap_replicate (list : List α) (times : α → Nat) :
    Repeats (list.filter fun a => 0 < times a)
      (list.flatMap fun a => List.replicate (times a) a) := by
  induction list with
  | nil => exact .nil
  | cons a rest ih =>
    rw [List.flatMap_cons]
    cases htimes : times a with
    | zero => rwa [List.filter_cons_of_neg (by simp [htimes])]
    | succ n =>
      rw [List.filter_cons_of_pos (by simp [htimes])]
      exact .cons a n ih

theorem filterMap (f : α → Option β) (h : Repeats list copies) :
    Repeats (list.filterMap f) (copies.filterMap f) := by
  induction h with
  | nil => exact .nil
  | cons a n _ ih =>
    rw [List.filterMap_append, List.filterMap_replicate, List.filterMap_cons]
    cases f a with
    | none => simpa using ih
    | some b => exact .cons b n ih

/-- A pass that does nothing with an element right after this element ignores copies. -/
theorem foldl_eq {f : β → α → β} (hf : ∀ b a, f (f b a) a = f b a) (h : Repeats list copies)
    (b : β) : copies.foldl f b = list.foldl f b := by
  have hreplicate (n : Nat) (a : α) (b : β) : (List.replicate n a).foldl f (f b a) = f b a := by
    induction n with
    | zero => rfl
    | succ n ih => rw [List.replicate_succ, List.foldl_cons, hf, ih]
  induction h generalizing b with
  | nil => rfl
  | cons a n _ ih =>
    rw [List.foldl_append, List.replicate_succ, List.foldl_cons, hreplicate, List.foldl_cons, ih]

end Lists

end Repeats

/-- The aggregates of this kind do not depend on how often a row is repeated. -/
def AggregateKind.IgnoresCopies (k : AggregateKind) : Prop :=
  k = .countDistinct ∨ k = .max ∨ k = .min

instance : DecidablePred AggregateKind.IgnoresCopies := fun k =>
  inferInstanceAs (Decidable (k = .countDistinct ∨ k = .max ∨ k = .min))

namespace Aggregate

variable {a : Aggregate} {vs copies rows rows' : List Json}

theorem pick_pick {α : Type} (replaces : Ordering → Bool) (cmp : α → α → Ordering)
    (best : Option α) (next : α) :
    pick replaces cmp (pick replaces cmp best next) next = pick replaces cmp best next := by
  cases best with
  | none => simp [pick]
  | some best =>
    by_cases h : replaces (cmp best next) = true <;> simp [pick, h]

theorem minOf_of_repeats (h : Repeats vs copies) : minOf copies = minOf vs := by
  rw [minOf_eq, minOf_eq, h.foldl_eq (pick_pick _ _)]

theorem maxOf_of_repeats (h : Repeats vs copies) : maxOf copies = maxOf vs := by
  rw [maxOf_eq, maxOf_eq, h.foldl_eq (pick_pick _ _)]

/-- A text that has been counted once is among those seen. -/
theorem countTexts_of_repeats (h : Repeats vs copies) : countTexts copies = countTexts vs := by
  rw [countTexts, countTexts, h.foldl_eq]
  intro seen v
  by_cases hseen : v.compact ∈ seen <;> simp [hseen]

theorem eval_of_repeats (hkind : a.kind.IgnoresCopies) (h : Repeats rows rows') :
    a.eval rows' = a.eval rows := by
  have hvalues : Repeats (a.values rows) (a.values rows') := h.filterMap _
  rcases hkind with hkind | hkind | hkind <;> simp only [eval, hkind]
  case inl => rw [countTexts_of_repeats hvalues]
  case inr.inl => rw [maxOf_of_repeats hvalues]
  case inr.inr => rw [minOf_of_repeats hvalues]

theorem exists_eval_eq_ok (hkind : a.kind.IgnoresCopies) (rows : List Json) :
    ∃ v, a.eval rows = .ok v := by
  rcases hkind with hkind | hkind | hkind <;> simp only [eval, hkind] <;> exact ⟨_, rfl⟩

end Aggregate

variable {aggregates : List Aggregate}

theorem aggregateAll_of_repeats (hkinds : ∀ a ∈ aggregates, a.kind.IgnoresCopies)
    {rows rows' : List Json} (h : Repeats rows rows') :
    aggregateAll rows' aggregates = aggregateAll rows aggregates := by
  choose! value hvalue using fun a ha => Aggregate.exists_eval_eq_ok (hkinds a ha) rows
  have hvalue' : ∀ a ∈ aggregates, a.eval rows' = .ok (value a) := by
    intro a ha
    rw [Aggregate.eval_of_repeats (hkinds a ha) h, hvalue a ha]
  rw [aggregateAll_eq_ok_of_forall hvalue, aggregateAll_eq_ok_of_forall hvalue']

/-- Plans that count the same bindings have selections of the same documents. -/
theorem Plan.exists_select_of_counts_eq {p q : Plan} {limit : Nat} {documents : List Json}
    (hcounts : q.counts (max limit 1) = p.counts (max limit 1)) {found : Selection}
    (h : p.select limit documents = .ok found) :
    ∃ found', q.select limit documents = .ok found' := by
  rw [select_eq] at h
  obtain ⟨reached, hreached, -⟩ := exists_of_selectBy_eq_ok h
  rw [← hcounts] at hreached
  exact ⟨_, (q.select_eq limit documents).trans (selectBy_eq_ok hreached)⟩

namespace Store

/-- What a query does apart from whether it is distinct: its criteria are checked, and then its plan
selects. -/
theorem outcome_run_setDistinct (s : Store) (c : Condition) (purpose : Purpose) (distinct : Bool) :
    (s.run { c with distinct } purpose).outcome =
      ((checkActives c.consulted).mapError QueryError.condition).bind fun _ =>
        (({ c.plan purpose with distinct }.select s.settings.bindingLimit s.documents).mapError
          QueryError.execution).map Selection.documents := by
  have hconsulted : { c with distinct }.consulted = c.consulted := rfl
  rw [outcome_run, Condition.compile_eq, hconsulted]
  cases checkActives c.consulted <;> rfl

/-- A query that is not distinct fails as the distinct one does, or its rows are copies of the rows
of that one. -/
theorem run_repeats (s : Store) (c : Condition) (purpose : Purpose) :
    (∃ rows rows', (s.run { c with distinct := true } purpose).outcome = .ok rows ∧
      (s.run { c with distinct := false } purpose).outcome = .ok rows' ∧ Repeats rows rows') ∨
    ∃ e, (s.run { c with distinct := true } purpose).outcome = .error e ∧
      (s.run { c with distinct := false } purpose).outcome = .error e := by
  let p : Plan := { c.plan purpose with distinct := true }
  let q : Plan := { c.plan purpose with distinct := false }
  have hcounts (limit : Nat) : q.counts limit = p.counts limit := rfl
  rw [outcome_run_setDistinct, outcome_run_setDistinct]
  cases checkActives c.consulted with
  | error e => exact .inr ⟨.condition e, rfl, rfl⟩
  | ok u =>
    let answer (r : Plan) : Except QueryError (List Json) :=
      ((r.select s.settings.bindingLimit s.documents).mapError QueryError.execution).map
        Selection.documents
    show (∃ rows rows', answer p = .ok rows ∧ answer q = .ok rows' ∧ Repeats rows rows') ∨
      ∃ e, answer p = .error e ∧ answer q = .error e
    simp only [answer]
    cases hp : p.select s.settings.bindingLimit s.documents with
    | ok found =>
      obtain ⟨found', hq⟩ := Plan.exists_select_of_counts_eq (hcounts _) hp
      rw [hq]
      refine .inl ⟨found.documents, found'.documents, rfl, rfl, ?_⟩
      rw [Plan.documents_select_of_distinct rfl hp, Plan.eq_of_select_eq_ok hq]
      exact .flatMap_replicate s.documents p.hits
    | error e =>
      cases hq : q.select s.settings.bindingLimit s.documents with
      | ok found' =>
        obtain ⟨found, hfound⟩ := Plan.exists_select_of_counts_eq (hcounts _).symm hq
        rw [hp] at hfound
        cases hfound
      | error e' =>
        rw [Plan.eq_of_select_eq_error hp, Plan.eq_of_select_eq_error hq]
        exact .inr ⟨_, rfl, rfl⟩

theorem outcome_aggregate (s : Store) (c : Condition) (aggregates : List Aggregate) :
    (s.aggregate c aggregates).outcome =
      (s.findAll c).outcome.bind fun rows => aggregateAll rows aggregates := by
  rw [aggregate, Logged.outcome_bind, findAll, s.outcome_run_eq rfl .documents .number]
  rfl

/-- Least values, greatest values and counts of different values are the same over a query and over
the distinct one.

1. Both queries fail with the same error, or the rows of the one are the rows of the distinct one,
   each of them repeated on the spot.
2. Both have the same outcome of the aggregates.
3. If the query succeeds, there is a row of aggregates. -/
theorem aggregate_distinct (s : Store) (c : Condition) {aggregates : List Aggregate}
    (hkinds : ∀ a ∈ aggregates, a.kind.IgnoresCopies) :
    let once : Condition := { c with distinct := true }
    let each : Condition := { c with distinct := false }
    ((∃ rows rows', (s.findAll once).outcome = .ok rows ∧ (s.findAll each).outcome = .ok rows' ∧
        Repeats rows rows') ∨
      ∃ e, (s.findAll once).outcome = .error e ∧ (s.findAll each).outcome = .error e) ∧
    (s.aggregate once aggregates).outcome = (s.aggregate each aggregates).outcome ∧
    ((∃ rows, (s.findAll c).outcome = .ok rows) →
      ∃ row, (s.aggregate once aggregates).outcome = .ok row ∧
        (s.aggregate each aggregates).outcome = .ok row) := by
  intro once each
  have hboth := s.run_repeats c .documents
  have hsame : (s.aggregate once aggregates).outcome = (s.aggregate each aggregates).outcome := by
    rw [outcome_aggregate, outcome_aggregate]
    rcases hboth with ⟨rows, rows', honce, heach, hrepeats⟩ | ⟨e, honce, heach⟩
    · rw [findAll, findAll, honce, heach]
      exact (aggregateAll_of_repeats hkinds hrepeats).symm
    · rw [findAll, findAll, honce, heach]
  refine ⟨hboth, hsame, ?_⟩
  rintro ⟨rows, hrows⟩
  have hc : c = once ∨ c = each := by
    obtain ⟨filter, joins, distinct, suppressFetch⟩ := c
    cases distinct
    · exact .inr rfl
    · exact .inl rfl
  obtain ⟨row, hrow⟩ := exists_aggregateAll_eq_ok_iff.mpr fun a ha =>
    Aggregate.exists_eval_eq_ok (hkinds a ha) rows
  have hanswer : (s.aggregate c aggregates).outcome = .ok row := by
    rw [outcome_aggregate, hrows]
    exact hrow
  rcases hc with hc | hc <;> rw [hc] at hanswer
  · exact ⟨row, hanswer, hsame ▸ hanswer⟩
  · exact ⟨row, hsame ▸ hanswer, hanswer⟩

/-- A post with two comments comes twice if the query is not distinct. The count of its rows sees
that, the other aggregates do not. -/
theorem aggregate_distinct_blog :
    let ids : Aggregate := .named .countDistinct "id"
    let last : Aggregate := .named .max "id"
    (blog.aggregate { withComments with distinct := true } [.countRows]).outcome =
        .ok [("count", .ofNat 2)] ∧
      (blog.aggregate withComments [.countRows]).outcome = .ok [("count", .ofNat 3)] ∧
      (blog.aggregate { withComments with distinct := true } [ids, last]).outcome =
        (blog.aggregate withComments [ids, last]).outcome ∧
      (blog.aggregate withComments [ids, last]).outcome =
        .ok [("countDistinct", .ofNat 2), ("max", .text "b")] := by
  intro ids last
  have hkinds : ∀ a ∈ [ids, last], a.kind.IgnoresCopies := by decide
  obtain ⟨-, hsame, -⟩ := aggregate_distinct blog withComments hkinds
  let first := Json.object [("comments", .array [.object [], .object []]), ("id", .text "a")]
  let second := Json.object [("id", .text "b")]
  have hrows : (blog.findAll withComments).outcome = .ok [first, first, second] := rfl
  have hrow : aggregateAll [first, first, second] [ids, last] =
      .ok [("countDistinct", .ofNat 2), ("max", .text "b")] := by cbv
  refine ⟨rfl, rfl, hsame, ?_⟩
  rw [outcome_aggregate, hrows]
  exact hrow

end Store

end Criteria
