import Criteria.Proofs.Plan.Execution

/-!
# What a plan selects

A plan looks at each document by itself. Within the limit on bindings, a document comes back as
often as it has bindings that make the predicate true, and a distinct plan keeps the documents
that have one.

## Main definitions

- `Plan.hits`: how many bindings of a document make the predicate true

## Main statements

- `Plan.eq_of_select_eq_ok`: a selection, document by document
- `Plan.head?_documents_select`: the first document that is selected
- `Plan.documents_select_of_distinct`: a distinct plan filters the documents
- `Plan.eq_of_select_eq_error`: the only failure is a document with too many bindings
-/

namespace Criteria.Plan

variable {p : Plan} {limit : Nat}

/-- The number of bindings of a document under which the predicate is true. -/
def hits (p : Plan) (document : Json) : Nat :=
  (document.allBindings p.traversals).countP fun binding =>
    (p.predicate.eval ⟨document, binding⟩).isTrue

theorem eq_of_counts_eq_ok {document : Json} {reached : Nat × Nat}
    (h : p.counts limit document = .ok reached) :
    reached = ((document.allBindings p.traversals).length, p.hits document) := by
  cases hbindings : document.bindings? p.traversals limit with
  | error e =>
    rw [counts, hbindings] at h
    cases h
  | ok found =>
    rw [counts_of_bindings? hbindings] at h
    obtain rfl := Json.eq_allBindings hbindings
    exact (Except.ok.inj h).symm

/-- A selection fails on a document with too many bindings and on nothing else. -/
theorem eq_of_select_eq_error {documents : List Json} {e : ExecutionError}
    (h : p.select limit documents = .error e) : e = .tooManyBindings (max limit 1) := by
  rw [select_eq] at h
  obtain ⟨d, -, hd⟩ := exists_of_selectBy_eq_error h
  exact eq_of_counts_eq_error hd

/-- A selection repeats each document once for each of its hits, or once at most if the plan is
distinct. -/
theorem eq_of_select_eq_ok {documents : List Json} {s : Selection}
    (h : p.select limit documents = .ok s) :
    s = {
      documents :=
        documents.flatMap fun document => List.replicate (p.copies (p.hits document)) document
      scanned := documents.length
      evaluated :=
        (documents.flatMap fun document => document.allBindings p.traversals).length } := by
  rw [select_eq] at h
  obtain ⟨reached, hreached, -⟩ := exists_of_selectBy_eq_ok h
  have hcounts : ∀ d ∈ documents, p.counts (max limit 1) d =
      .ok ((d.allBindings p.traversals).length, p.hits d) := by
    intro d hd
    rw [hreached d hd, eq_of_counts_eq_ok (hreached d hd)]
  rw [selectBy_eq_ok hcounts] at h
  rw [List.length_flatMap]
  exact (Except.ok.inj h).symm

/-- What is repeated once at most is kept or left out. -/
theorem flatMap_replicate_of_le_one {α : Type} {times : α → Nat} (h : ∀ x, times x ≤ 1)
    (xs : List α) :
    (xs.flatMap fun x => List.replicate (times x) x) = xs.filter fun x => 0 < times x := by
  induction xs with
  | nil => rfl
  | cons x rest ih =>
    rw [List.flatMap_cons, ih]
    by_cases hpos : 0 < times x
    · have hone : times x = 1 := Nat.le_antisymm (h x) hpos
      rw [List.filter_cons_of_pos (by simpa using hpos), hone]
      rfl
    · have hzero : times x = 0 := Nat.eq_zero_of_not_pos hpos
      rw [List.filter_cons_of_neg (by simpa using hpos), hzero]
      rfl

theorem copies_pos_iff {satisfied : Nat} : 0 < p.copies satisfied ↔ 0 < satisfied :=
  Nat.pos_iff_ne_zero.trans copies_ne_zero_iff

/-- The first of repeated elements is the first that is repeated at all. -/
theorem head?_flatMap_replicate {α : Type} (xs : List α) (times : α → Nat) :
    (xs.flatMap fun x => List.replicate (times x) x).head? = xs.find? fun x => 0 < times x := by
  induction xs with
  | nil => rfl
  | cons x rest ih =>
    rw [List.flatMap_cons, List.find?_cons]
    cases htimes : times x with
    | zero => simpa using ih
    | succ n => simp [List.replicate_succ]

/-- The first document that is selected is the first with a hit. -/
theorem head?_documents_select {documents : List Json} {s : Selection}
    (h : p.select limit documents = .ok s) :
    s.documents.head? = documents.find? fun document => 0 < p.hits document := by
  rw [eq_of_select_eq_ok h, head?_flatMap_replicate]
  simp only [copies_pos_iff]

/-- A plan that returns no document twice keeps the documents with a hit. -/
theorem documents_select_of_le_one {documents : List Json} {s : Selection}
    (hcopies : ∀ document, p.copies (p.hits document) ≤ 1)
    (h : p.select limit documents = .ok s) :
    s.documents = documents.filter fun document => 0 < p.hits document := by
  rw [eq_of_select_eq_ok h, flatMap_replicate_of_le_one hcopies]
  simp only [copies_pos_iff]

/-- A distinct plan keeps the documents with a hit. -/
theorem documents_select_of_distinct {documents : List Json} {s : Selection}
    (hdistinct : p.distinct = true) (h : p.select limit documents = .ok s) :
    s.documents = documents.filter fun document => 0 < p.hits document := by
  refine documents_select_of_le_one (fun document => ?_) h
  rw [copies, if_pos hdistinct]
  exact Nat.min_le_right _ 1

theorem hits_pos_iff {document : Json} : 0 < p.hits document ↔
    ∃ binding ∈ document.allBindings p.traversals,
      p.predicate.eval ⟨document, binding⟩ = .true := by
  have htrue (t : Truth) : t.isTrue = true ↔ t = .true := by
    cases t <;> simp [Truth.isTrue]
  simp only [hits, List.countP_pos_iff, htrue]

end Criteria.Plan
