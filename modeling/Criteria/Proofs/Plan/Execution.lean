import Mathlib.Algebra.GroupWithZero.Nat
import Criteria.Proofs.Bindings.Limit
import Criteria.Proofs.Plan.Evaluator

/-!
# Execution goes document by document

A selection is put together from what each document contributes by itself, in the order of the
documents. The evaluator is the only thing that documents share, and what it holds changes
nothing.

## Main statements

- `Plan.selectBy_append`: a selection of two lists is the one of the first and then the other
- `Plan.selectBy_eq_ok`: a selection where all documents have counts
- `Plan.select_multiplicity`: what a plan selects
-/

namespace Criteria

/-- One selection after another. -/
instance : Append Selection where
  append a b := ⟨a.documents ++ b.documents, a.scanned + b.scanned, a.evaluated + b.evaluated⟩

theorem Truth.isTrue_eq_decide (t : Truth) : t.isTrue = decide (t = .true) := by
  cases t <;> rfl

namespace Selection

theorem append_def (a b : Selection) :
    a ++ b = ⟨a.documents ++ b.documents, a.scanned + b.scanned, a.evaluated + b.evaluated⟩ :=
  rfl

theorem empty_append (a : Selection) : {} ++ a = a := by
  simp [append_def]

theorem append_assoc (a b c : Selection) : a ++ b ++ c = a ++ (b ++ c) := by
  simp [append_def, Nat.add_assoc]

end Selection

namespace Plan

variable {p : Plan} {limit : Nat} {counts : Json → Except ExecutionError (Nat × Nat)}

theorem copies_ne_zero_iff {satisfied : Nat} : p.copies satisfied ≠ 0 ↔ 0 < satisfied := by
  unfold copies
  split <;> omega

/-- What was selected so far stands before what is selected then. -/
theorem selectBy_eq_map (p : Plan) (counts : Json → Except ExecutionError (Nat × Nat))
    (found : List Json) (scanned evaluated : Nat) (documents : List Json) :
    p.selectBy counts found scanned evaluated documents =
      (p.selectBy counts [] 0 0 documents).map (⟨found.reverse, scanned, evaluated⟩ ++ ·) := by
  induction documents generalizing found scanned evaluated with
  | nil => simp [selectBy, Except.map, Selection.append_def]
  | cons document rest ih =>
    rw [selectBy, selectBy]
    cases counts document with
    | error e => rfl
    | ok reached =>
      obtain ⟨bindings, satisfied⟩ := reached
      show p.selectBy counts _ _ _ rest = (p.selectBy counts _ _ _ rest).map _
      rw [ih (_ ++ found), ih (_ ++ [])]
      cases p.selectBy counts [] 0 0 rest with
      | error e => rfl
      | ok s => simp [Except.map, Selection.append_def, Nat.add_assoc]

/-- A selection begins with what its first document contributes. -/
theorem selectBy_cons (document : Json) (rest : List Json) :
    p.selectBy counts [] 0 0 (document :: rest) =
      (counts document).bind fun (bindings, satisfied) =>
        (p.selectBy counts [] 0 0 rest).map
          (⟨List.replicate (p.copies satisfied) document, 1, bindings⟩ ++ ·) := by
  rw [selectBy]
  cases counts document with
  | error e => rfl
  | ok reached =>
    obtain ⟨bindings, satisfied⟩ := reached
    show p.selectBy counts _ _ _ rest = _
    rw [selectBy_eq_map, List.append_nil, List.reverse_replicate, Nat.zero_add, Nat.zero_add]
    rfl

theorem selectBy_append (xs ys : List Json) :
    p.selectBy counts [] 0 0 (xs ++ ys) = do
      let a ← p.selectBy counts [] 0 0 xs
      let b ← p.selectBy counts [] 0 0 ys
      return a ++ b := by
  induction xs with
  | nil =>
    show p.selectBy counts [] 0 0 ys = (p.selectBy counts [] 0 0 ys).bind fun b => .ok ({} ++ b)
    simp only [Selection.empty_append]
    cases p.selectBy counts [] 0 0 ys <;> rfl
  | cons document rest ih =>
    rw [List.cons_append, selectBy_cons, selectBy_cons, ih]
    cases counts document with
    | error e => rfl
    | ok reached =>
      cases p.selectBy counts [] 0 0 rest with
      | error e => rfl
      | ok a =>
        cases p.selectBy counts [] 0 0 ys with
        | error e => rfl
        | ok b => exact congrArg Except.ok (Selection.append_assoc _ a b).symm

/-- Where each document has counts, it is repeated as often as they say. -/
theorem selectBy_eq_ok {documents : List Json} {reached : Json → Nat × Nat}
    (h : ∀ d ∈ documents, counts d = .ok (reached d)) :
    p.selectBy counts [] 0 0 documents = .ok {
      documents := documents.flatMap fun d => List.replicate (p.copies (reached d).2) d
      scanned := documents.length
      evaluated := (documents.map fun d => (reached d).1).sum } := by
  induction documents with
  | nil => rfl
  | cons document rest ih =>
    rw [selectBy_cons, h document List.mem_cons_self,
      ih fun d hd => h d (List.mem_cons_of_mem document hd)]
    simp [Except.bind, Except.map, Selection.append_def, Nat.add_comm]

/-- A selection fails as the counts of some document fail. -/
theorem exists_of_selectBy_eq_error {documents : List Json} {e : ExecutionError}
    (h : p.selectBy counts [] 0 0 documents = .error e) :
    ∃ d ∈ documents, counts d = .error e := by
  induction documents with
  | nil => cases h
  | cons document rest ih =>
    rw [selectBy_cons] at h
    cases hdocument : counts document with
    | error e' =>
      rw [hdocument] at h
      cases h
      exact ⟨document, List.mem_cons_self, hdocument⟩
    | ok reached =>
      cases hrest : p.selectBy counts [] 0 0 rest with
      | error e' =>
        rw [hdocument, hrest] at h
        cases h
        obtain ⟨d, hd, he⟩ := ih hrest
        exact ⟨d, List.mem_cons_of_mem document hd, he⟩
      | ok s =>
        rw [hdocument, hrest] at h
        cases h

/-- A selection succeeds only if each document has counts, and then it goes by these. -/
theorem exists_of_selectBy_eq_ok {documents : List Json} {s : Selection}
    (h : p.selectBy counts [] 0 0 documents = .ok s) :
    ∃ reached : Json → Nat × Nat, (∀ d ∈ documents, counts d = .ok (reached d)) ∧ s = {
      documents := documents.flatMap fun d => List.replicate (p.copies (reached d).2) d
      scanned := documents.length
      evaluated := (documents.map fun d => (reached d).1).sum } := by
  have heach : ∀ d ∈ documents, ∃ reached, counts d = .ok reached := by
    induction documents generalizing s with
    | nil => simp
    | cons document rest ih =>
      rw [selectBy_cons] at h
      cases hdocument : counts document with
      | error e =>
        rw [hdocument] at h
        cases h
      | ok reached =>
        cases hrest : p.selectBy counts [] 0 0 rest with
        | error e =>
          rw [hdocument, hrest] at h
          cases h
        | ok s' => exact List.forall_mem_cons.mpr ⟨⟨reached, hdocument⟩, ih hrest⟩
  have hreached : ∀ d ∈ documents, counts d = .ok ((counts d).toOption.getD (0, 0)) := by
    intro d hd
    obtain ⟨reached, hd⟩ := heach d hd
    rw [hd]
    rfl
  rw [selectBy_eq_ok hreached] at h
  exact ⟨_, hreached, (Except.ok.inj h).symm⟩

/-- A document is returned if one of its bindings counts. -/
theorem mem_of_selectBy_eq_ok {documents : List Json} {s : Selection} {d : Json}
    {bindings satisfied : Nat} (h : p.selectBy counts [] 0 0 documents = .ok s)
    (hd : d ∈ documents) (hcounts : counts d = .ok (bindings, satisfied)) :
    d ∈ s.documents ↔ 0 < satisfied := by
  obtain ⟨reached, hreached, rfl⟩ := exists_of_selectBy_eq_ok h
  have hown : reached d = (bindings, satisfied) := by
    have heq := hreached d hd
    rw [hcounts] at heq
    exact (Except.ok.inj heq).symm
  rw [List.mem_flatMap]
  constructor
  · rintro ⟨d', -, hmem⟩
    obtain ⟨hcopies, rfl⟩ := List.mem_replicate.mp hmem
    rwa [hown, copies_ne_zero_iff] at hcopies
  · intro hpos
    refine ⟨d, hd, List.mem_replicate.mpr ⟨?_, rfl⟩⟩
    rwa [hown, copies_ne_zero_iff]

theorem counts_of_bindings? {document : Json} {bindings : List Binding}
    (h : document.bindings? p.traversals limit = .ok bindings) :
    p.counts limit document = .ok (bindings.length,
      bindings.countP fun binding => (p.predicate.eval ⟨document, binding⟩).isTrue) := by
  rw [counts, h]
  rfl

theorem eq_of_counts_eq_error {document : Json} {e : ExecutionError}
    (h : p.counts limit document = .error e) : e = .tooManyBindings limit := by
  cases hbindings : document.bindings? p.traversals limit with
  | error e' =>
    rw [counts, hbindings] at h
    cases h
    exact (Json.bindings?_eq_error_iff.mp hbindings).1
  | ok bindings =>
    rw [counts_of_bindings? hbindings] at h
    cases h

/-- What a plan selects from a list of documents, and what its evaluator adds to that.

1. The evaluator that all documents share gives the same result as a new one for each document,
   also if the engine refuses a pattern.
2. A selection of two lists in a row is the selection of the first and that of the second.
3. The engine that runs refuses no pattern.
4. If no document has too many bindings, each is repeated as often as it has bindings under which
   the predicate is true, or once at most if the plan is distinct, and all documents and all of
   their bindings are counted. A document is accepted if it has a binding of this kind.
5. The documents that are returned are those that are accepted.
6. If some document has too many bindings, there is no result but this error. -/
theorem select_multiplicity (p : Plan) (limit : Nat) :
    (∀ (engine : PatternEngine) (documents : List Json),
      p.selectWith engine limit documents =
        p.selectBy (fun d => (p.satisfied engine (max limit 1) d).run' {}) [] 0 0 documents) ∧
    (∀ (engine : PatternEngine) (xs ys : List Json),
      p.selectWith engine limit (xs ++ ys) = do
        let a ← p.selectWith engine limit xs
        let b ← p.selectWith engine limit ys
        return a ++ b) ∧
    (p.select limit = p.selectWith .standard limit ∧
      p.accepts limit = p.acceptsWith .standard limit ∧ PatternEngine.standard.Usable p) ∧
    ∀ engine : PatternEngine, engine.Usable p →
      (∀ (documents : List Json) (bindings : Json → List Binding),
        (∀ d ∈ documents, d.bindings? p.traversals (max limit 1) = .ok (bindings d)) →
        let hits (d : Json) : Nat :=
          (bindings d).countP fun binding => p.predicate.eval ⟨d, binding⟩ = .true
        p.selectWith engine limit documents = .ok {
          documents := documents.flatMap fun d =>
            List.replicate (if p.distinct then min (hits d) 1 else hits d) d
          scanned := documents.length
          evaluated := (documents.map fun d => (bindings d).length).sum } ∧
        ∀ d ∈ documents, p.acceptsWith engine limit d = .ok (0 < hits d)) ∧
      (∀ (documents : List Json) (found : Selection),
        p.selectWith engine limit documents = .ok found →
        ∀ d ∈ documents, d ∈ found.documents ↔ p.acceptsWith engine limit d = .ok true) ∧
      ∀ documents : List Json,
        (∃ d ∈ documents, ∃ e, d.bindings? p.traversals (max limit 1) = .error e) →
        p.selectWith engine limit documents = .error (.tooManyBindings (max limit 1)) := by
  refine ⟨fun engine documents => selectWith_eq_selectBy_fresh engine p limit documents,
    fun engine xs ys => ?_, ⟨rfl, rfl, PatternEngine.standard_usable p⟩,
    fun engine husable => ⟨?_, ?_, ?_⟩⟩
  · simp only [selectWith_eq_selectBy_fresh]
    exact selectBy_append xs ys
  · intro documents bindings hbindings hits
    have hhits (d : Json) : hits d =
        (bindings d).countP fun binding => (p.predicate.eval ⟨d, binding⟩).isTrue := by
      simp only [hits, Truth.isTrue_eq_decide]
    have hcounts (d : Json) (hd : d ∈ documents) :
        p.counts (max limit 1) d = .ok ((bindings d).length, hits d) := by
      rw [counts_of_bindings? (hbindings d hd), hhits]
    refine ⟨?_, fun d hd => ?_⟩
    · rw [selectWith_eq_selectBy_counts husable]
      exact selectBy_eq_ok hcounts
    · rw [acceptsWith_eq_counts husable, hcounts d hd]
      rfl
  · intro documents found hfound d hd
    rw [selectWith_eq_selectBy_counts husable] at hfound
    obtain ⟨reached, hreached, -⟩ := exists_of_selectBy_eq_ok hfound
    rw [acceptsWith_eq_counts husable, hreached d hd,
      mem_of_selectBy_eq_ok hfound hd (hreached d hd)]
    simp [Except.map]
  · rintro documents ⟨d, hd, e, he⟩
    rw [selectWith_eq_selectBy_counts husable]
    cases hselect : p.selectBy (p.counts (max limit 1)) [] 0 0 documents with
    | error e' =>
      obtain ⟨d', -, herror⟩ := exists_of_selectBy_eq_error hselect
      rw [eq_of_counts_eq_error herror]
    | ok found =>
      obtain ⟨reached, hreached, -⟩ := exists_of_selectBy_eq_ok hselect
      have hd' := hreached d hd
      rw [counts, he] at hd'
      cases hd'

/-- Documents with a tag of which the name begins in a given way. -/
def tagged : Plan where
  predicate := .compare (.like (.plain ⟨.join 0, "name"⟩) "le%")
  traversals := [⟨0, none, "tags", .inner, .join⟩]
  distinct := false
  skipped := 0

/-- A document with tags of the given names. -/
def withTags (names : List String) : Json :=
  .object [("tags", .array (names.map fun name => .object [("name", .text name)]))]

/-- The first document comes twice. A document with three tags has too many bindings. -/
theorem select_multiplicity_tagged :
    tagged.select 2 [withTags ["lean", "lemon"], withTags ["agda"]] = .ok {
      documents := [withTags ["lean", "lemon"], withTags ["lean", "lemon"]]
      scanned := 2
      evaluated := 3 } ∧
    tagged.select 2 [withTags ["lean"], withTags ["a", "b", "c"]] =
      .error (.tooManyBindings 2) := by
  obtain ⟨-, -, ⟨hselect, -, husable⟩, hplan⟩ := select_multiplicity tagged 2
  obtain ⟨hrows, -, herror⟩ := hplan .standard husable
  rw [hselect]
  refine ⟨?_, herror _ ⟨withTags ["a", "b", "c"], by simp, _, rfl⟩⟩
  refine (hrows _ (fun d => d.allBindings tagged.traversals) ?_).1
  intro d hd
  rcases List.mem_cons.mp hd with rfl | hd
  · rfl
  · obtain rfl := List.mem_singleton.mp hd
    rfl

end Plan

end Criteria
