import Criteria.Proofs.Plan.Embedding
import Criteria.Proofs.Store.Failure

/-!
# Joins that narrow an answer, and joins that do not

Joins that are added to a condition without alternatives ask for more of a document and offer
nothing else, so a distinct query loses rows at most. Joins that keep unmatched documents and have
no criteria at all ask for nothing, so a distinct query keeps its rows.

## Main definitions

- `Join.LoadsOnly`: what joins have in common that do no more than load rows
- `Condition.GrownBy`: a condition to which joins have been added
- `Store.WithinLimit`: no document has too many bindings for a query

## Main statements

- `Condition.GrownBy.hits_pos`: a document with a hit in the larger plan has one in the smaller
- `Condition.GrownBy.hits_pos_iff`: the same documents have hits
- `Store.findAll_sublist`: joins without alternatives narrow the answer
- `Store.findAll_unchanged`: joins without criteria do not change the answer
-/

namespace Criteria

namespace Truth

theorem and_eq_true_iff {a b : Truth} : a.and b = .true ↔ a = .true ∧ b = .true := by
  cases a <;> cases b <;> decide

theorem all_eq_true_iff {ts : List Truth} : all ts = .true ↔ ∀ t ∈ ts, t = .true := by
  induction ts with
  | nil => simp
  | cons t ts ih => rw [all_cons, and_eq_true_iff, ih, List.forall_mem_cons]

end Truth

theorem Json.allBindings_map_unloaded (document : Json) (ts : List Traversal) :
    document.allBindings (ts.map Traversal.unloaded) = document.allBindings ts := by
  rw [allBindings, List.foldl_map]
  rfl

/-- A join that keeps unmatched documents and has no criteria does no more than load rows. -/
def Join.LoadsOnly (kind : JoinKind) (filter : Filter) : Prop :=
  (kind = .left ∨ kind = .full) ∧ filter.consulted = []

theorem Join.LoadsOnly.keepsUnmatched {kind : JoinKind} {filter : Filter}
    (h : LoadsOnly kind filter) : kind.keepsUnmatched = true := by
  rcases h.1 with rfl | rfl <;> rfl

namespace Condition

/-- The joins of a condition in preorder, where no rows are loaded. -/
def plainVisits (c : Condition) : List Visit :=
  Join.visitsOf .join none 0 c.joins

theorem allBindings_plan (c : Condition) (purpose : Purpose) (document : Json) :
    document.allBindings (c.plan purpose).traversals =
      document.allBindings (Visit.traversals c.plainVisits) := by
  have htraversals : (c.plan purpose).traversals.map Traversal.unloaded =
      Visit.traversals c.plainVisits := by
    rw [plainVisits, ← c.map_unloaded_visits purpose, Visit.traversals, List.map_map]
    exact List.map_map
  rw [← htraversals, Json.allBindings_map_unloaded]

theorem consulted_eq_plainVisits (c : Condition) :
    c.consulted = c.filter.consulted ++ c.plainVisits.flatMap fun v => v.filter.consulted := by
  rw [consulted, plainVisits, ← c.map_unloaded_visits .documents, List.flatMap_map]
  rfl

/-- The truth of a plan's predicate, by the criteria of documents and those of joins. -/
theorem eval_plan (c : Condition) (purpose : Purpose) (document : Json) (binding : Binding) :
    (c.plan purpose).predicate.eval ⟨document, binding⟩ =
      ((Truth.all (truthsOn (some document) c.filter.criteria)).and
        (Truth.all (Truth.pool (truthsOn (some document) c.filter.alternatives)))).and
      ((Truth.all (Visit.truths Filter.criteria binding c.plainVisits)).and
        (Truth.all (Truth.pool (Visit.truths Filter.alternatives binding c.plainVisits)))) := by
  have hjoins : joinClause (c.visits purpose) = joinClause c.plainVisits := by
    rw [plainVisits, ← c.map_unloaded_visits purpose, joinClause_map_unloaded]
  rw [plan, Predicate.eval_getD_always, Predicate.all_eval_all?, List.map_append,
    Truth.all_append, all_eval_rootClause, hjoins, all_eval_joinClause]
  rfl

variable {P : JoinKind → Filter → Prop} {c c' : Condition}

/-- A condition to which joins with a property have been added. -/
structure GrownBy (P : JoinKind → Filter → Prop) (c c' : Condition) : Prop where
  filter : c'.filter = c.filter
  distinct : c'.distinct = c.distinct
  joins : Join.Grown P c.joins c'.joins

theorem grownBy_foldl_addJoin {joins : List Join} (h : ∀ j ∈ joins, j.Each P) (c : Condition) :
    c.GrownBy P (joins.foldl addJoin c) := by
  rw [foldl_addJoin]
  exact ⟨rfl, rfl, Join.grown_insertAll h c.joins⟩

theorem GrownBy.exists_embeds (h : c.GrownBy P c') :
    ∃ places, Visit.Embeds P c.plainVisits c'.plainVisits places := by
  have hparent : Traversal.Renumbered [] none none := trivial
  obtain ⟨places, hplaces⟩ := h.joins.exists_embeds .nil hparent
  exact ⟨places, hplaces⟩

/-- A document with a hit keeps one when joins without alternatives are taken away. -/
theorem GrownBy.hits_pos (h : c.GrownBy P c')
    (hP : ∀ kind filter, P kind filter → filter.alternatives = []) {purpose : Purpose}
    {document : Json} (hhits : 0 < (c'.plan purpose).hits document) :
    0 < (c.plan purpose).hits document := by
  obtain ⟨places, hplaces⟩ := h.exists_embeds
  obtain ⟨binding, hbinding, htrue⟩ := Plan.hits_pos_iff.mp hhits
  rw [allBindings_plan] at hbinding
  simp only [eval_plan, h.filter, Truth.and_eq_true_iff] at htrue
  obtain ⟨hroot, hcriteria, halternatives⟩ := htrue
  refine Plan.hits_pos_iff.mpr ⟨Binding.restrict places binding, ?_, ?_⟩
  · rw [allBindings_plan]
    exact hplaces.restrict_mem_allBindings hbinding
  · simp only [eval_plan, Truth.and_eq_true_iff]
    refine ⟨hroot, ?_, ?_⟩
    · -- the larger plan asks for all that the smaller one asks for
      have hsublist := hplaces.sublist_truths (List.prefix_refl _) Filter.criteria binding
      rw [Truth.all_eq_true_iff] at hcriteria ⊢
      exact fun t ht => hcriteria t (hsublist.mem ht)
    · rw [hplaces.truths_eq (List.prefix_refl _) hP]
      exact halternatives

/-- The same documents have hits if what is added does no more than load rows. -/
theorem GrownBy.hits_pos_iff (h : c.GrownBy Join.LoadsOnly c') (purpose : Purpose)
    (document : Json) :
    0 < (c'.plan purpose).hits document ↔ 0 < (c.plan purpose).hits document := by
  have hnone : ∀ kind filter, Join.LoadsOnly kind filter →
      filter.criteria = [] ∧ filter.alternatives = [] :=
    fun _ _ hloads => List.append_eq_nil_iff.mp hloads.2
  refine ⟨h.hits_pos fun kind filter hloads => (hnone kind filter hloads).2, fun hhits => ?_⟩
  obtain ⟨places, hplaces⟩ := h.exists_embeds
  obtain ⟨binding, hbinding, htrue⟩ := Plan.hits_pos_iff.mp hhits
  rw [allBindings_plan] at hbinding
  -- the binding extends to one of the larger plan, with the same truths
  obtain ⟨larger, hlarger, rfl⟩ := hplaces.exists_restrict_eq
    (fun _ _ hloads => hloads.keepsUnmatched) hbinding
  refine Plan.hits_pos_iff.mpr ⟨larger, ?_, ?_⟩
  · rw [allBindings_plan]
    exact hlarger
  · have hcriteria := hplaces.truths_eq (List.prefix_refl _)
      (fun kind filter hloads => (hnone kind filter hloads).1) larger
    have halternatives := hplaces.truths_eq (List.prefix_refl _)
      (fun kind filter hloads => (hnone kind filter hloads).2) larger
    rw [eval_plan, hcriteria, halternatives] at htrue
    rw [eval_plan, h.filter]
    exact htrue

theorem GrownBy.consulted_eq (h : c.GrownBy Join.LoadsOnly c') : c'.consulted = c.consulted := by
  obtain ⟨places, hplaces⟩ := h.exists_embeds
  rw [consulted_eq_plainVisits, consulted_eq_plainVisits, h.filter,
    hplaces.consulted_eq fun _ _ hloads => hloads.2]

end Condition

namespace Store

variable {s : Store} {c : Condition}

/-- No document has too many bindings for a query. -/
def WithinLimit (s : Store) (c : Condition) : Prop :=
  ∀ limit, (s.findAll c).outcome ≠ .error (.execution (.tooManyBindings limit))

/-- A distinct query answers with the documents that have a hit. -/
theorem eq_filter_of_outcome_findAll_eq_ok {rows : List Json} (hdistinct : c.distinct = true)
    (h : (s.findAll c).outcome = .ok rows) :
    rows = s.documents.filter fun document => 0 < (c.plan .documents).hits document := by
  obtain ⟨found, -, hselect, rfl⟩ := exists_select_of_outcome_run_eq_ok h
  exact Plan.documents_select_of_distinct hdistinct hselect

theorem exists_of_withinLimit (hcheck : checkActives c.consulted = .ok ())
    (h : s.WithinLimit c) : ∃ rows, (s.findAll c).outcome = .ok rows := by
  cases hrows : (s.findAll c).outcome with
  | ok rows => exact ⟨rows, rfl⟩
  | error e =>
    rcases exists_of_outcome_run_eq_error hrows with ⟨e', hcompile, -⟩ | ⟨p, -, rfl⟩
    · rw [Condition.compile_eq, hcheck] at hcompile
      cases hcompile
    · exact absurd hrows (h _)

theorem outcome_findAll_of_checkActives_eq_error {e : ConditionError}
    (h : checkActives c.consulted = .error e) :
    (s.findAll c).outcome = .error (.condition e) := by
  rw [findAll, outcome_run, Condition.compile_eq, h]
  rfl

/-- Conditions of which one has grown by joins that do no more than load rows have the same
answer. -/
theorem outcome_findAll_of_grownBy {c' : Condition} (h : c.GrownBy Join.LoadsOnly c')
    (hdistinct : c.distinct = true) (hlimit : s.WithinLimit c) (hlimit' : s.WithinLimit c') :
    (s.findAll c').outcome = (s.findAll c).outcome := by
  cases hcheck : checkActives c.consulted with
  | error e =>
    -- both are refused, with the same error
    have hcheck' : checkActives c'.consulted = .error e := by rw [h.consulted_eq, hcheck]
    rw [outcome_findAll_of_checkActives_eq_error hcheck,
      outcome_findAll_of_checkActives_eq_error hcheck']
  | ok u =>
    have hcheck' : checkActives c'.consulted = .ok () := by rw [h.consulted_eq, hcheck]
    obtain ⟨rows, hrows⟩ := exists_of_withinLimit hcheck hlimit
    obtain ⟨rows', hrows'⟩ := exists_of_withinLimit hcheck' hlimit'
    have hdistinct' : c'.distinct = true := h.distinct.trans hdistinct
    rw [hrows, hrows', eq_filter_of_outcome_findAll_eq_ok hdistinct hrows,
      eq_filter_of_outcome_findAll_eq_ok hdistinct' hrows']
    congr 1
    refine List.filter_congr fun document _ => ?_
    exact decide_eq_decide.mpr (h.hits_pos_iff .documents document)

/-- Joins that do no more than load rows do not change the answer of a distinct query: left and
full joins without criteria, at every depth, that are added as trees or as paths, however they
merge with the joins that are there. The query answers with the same rows in the same order, or
is refused with the same error. -/
theorem findAll_unchanged (hdistinct : c.distinct = true) (hlimit : s.WithinLimit c) :
    (∀ joins : List Join, (∀ j ∈ joins, j.Each Join.LoadsOnly) →
      s.WithinLimit (joins.foldl Condition.addJoin c) →
      (s.findAll (joins.foldl Condition.addJoin c)).outcome = (s.findAll c).outcome) ∧
    (∀ paths : List String, s.WithinLimit (c.addPaths paths).1 →
      (s.findAll (c.addPaths paths).1).outcome = (s.findAll c).outcome) := by
  have hjoins (joins : List Join) (h : ∀ j ∈ joins, j.Each Join.LoadsOnly)
      (hlimit' : s.WithinLimit (joins.foldl Condition.addJoin c)) :
      (s.findAll (joins.foldl Condition.addJoin c)).outcome = (s.findAll c).outcome :=
    outcome_findAll_of_grownBy (Condition.grownBy_foldl_addJoin h c) hdistinct hlimit hlimit'
  refine ⟨hjoins, fun paths hlimit' => ?_⟩
  -- the paths that are added before one is refused are left joins without a filter
  have hplain : Join.LoadsOnly .left {} := ⟨.inl rfl, rfl⟩
  obtain ⟨joins, heach, heq⟩ := Condition.exists_foldl_addJoin_of_addPaths hplain c paths
  rw [heq] at hlimit' ⊢
  exact hjoins joins heach hlimit'

/-- A post with two comments, one of which is pinned. -/
def pinnedPost : Json :=
  .object
    [("comments", .array [.object [("pinned", .bool true), ("user", .text "ann")], .object []])]

/-- The post and another one without comments. -/
def threads : Store where
  entity := "posts"
  documents := [pinnedPost, .object []]

/-- Each post with a pinned comment. -/
def withPinned : Condition where
  joins :=
    [{ key := "comments", kind := .left,
       filter := { criteria := [⟨"pinned", .bool true, .equals⟩] } }]
  distinct := true

/-- Loads the authors of posts, and the comments with their users. -/
def loaded : List Join :=
  [{ key := "comments", kind := .left, children := [{ key := "user", kind := .full }] },
   { key := "author", kind := .full }]

/-- The comments to load merge with those that are there, and the authors come before them. -/
theorem findAll_unchanged_threads :
    (threads.findAll withPinned).outcome = .ok [pinnedPost] ∧
      (threads.findAll (loaded.foldl Condition.addJoin withPinned)).outcome =
        (threads.findAll withPinned).outcome ∧
      (threads.findAll (withPinned.addPaths ["comments.user"]).1).outcome =
        (threads.findAll withPinned).outcome := by
  have within {c : Condition} {rows : List Json} (h : (threads.findAll c).outcome = .ok rows) :
      threads.WithinLimit c := by
    intro limit herror
    rw [h] at herror
    cases herror
  have hrows : (threads.findAll withPinned).outcome = .ok [pinnedPost] := rfl
  have hloaded :
      (threads.findAll (loaded.foldl Condition.addJoin withPinned)).outcome = .ok [pinnedPost] :=
    rfl
  have hpaths :
      (threads.findAll (withPinned.addPaths ["comments.user"]).1).outcome = .ok [pinnedPost] := by
    have hsegments : Path.segments "comments.user" = .ok ["comments", "user"] :=
      Path.segments_eq_ok_iff.mpr ⟨by decide, by decide⟩
    rw [Condition.addPaths, Condition.addPath, Join.ofPath, hsegments]
    rfl
  obtain ⟨hjoins, hchains⟩ := findAll_unchanged (c := withPinned) rfl (within hrows)
  refine ⟨hrows, hjoins loaded ?_ (within hloaded), hchains ["comments.user"] (within hpaths)⟩
  have hleaf (key : String) : ({ key, kind := .full } : Join).Each Join.LoadsOnly :=
    .intro ⟨.inr rfl, rfl⟩ (by simp)
  intro j hj
  rcases List.mem_cons.mp hj with rfl | hj
  · refine .intro ⟨.inl rfl, rfl⟩ fun child hchild => ?_
    obtain rfl := List.mem_singleton.mp hchild
    exact hleaf "user"
  · obtain rfl := List.mem_singleton.mp hj
    exact hleaf "author"

/-- Joins without alternatives at any depth, of any kinds and with any criteria, can only take
rows from the answer of a distinct query. -/
theorem findAll_sublist {rows rows' : List Json} {joins : List Join}
    (hdistinct : c.distinct = true)
    (hjoins : ∀ j ∈ joins, j.Each fun _ filter => filter.alternatives = [])
    (hrows : (s.findAll c).outcome = .ok rows)
    (hrows' : (s.findAll (joins.foldl Condition.addJoin c)).outcome = .ok rows') :
    rows'.Sublist rows ∧
      ∀ idField, (Catalog.listByConditionWith ⟨s, idField⟩ c joins).outcome = .ok rows' := by
  have hgrown := Condition.grownBy_foldl_addJoin hjoins c
  refine ⟨?_, fun idField => ?_⟩
  · rw [eq_filter_of_outcome_findAll_eq_ok hdistinct hrows,
      eq_filter_of_outcome_findAll_eq_ok (hgrown.distinct.trans hdistinct) hrows']
    refine List.monotone_filter_right s.documents fun document hhits => ?_
    rw [decide_eq_true_eq] at hhits ⊢
    exact hgrown.hits_pos (fun _ _ hfilter => hfilter) hhits
  · rw [Catalog.listByConditionWith, Logged.outcome_bind, Catalog.withJoins,
      Logged.outcome_bind_pure]
    exact hrows'

/-- Asks for a pinned comment. -/
def pinned : Join where
  key := "comments"
  kind := .inner
  filter := { criteria := [⟨"pinned", .bool true, .equals⟩] }

/-- The query for each post loses the one without comments. -/
theorem findAll_sublist_threads :
    [pinnedPost].Sublist threads.documents ∧
      (Catalog.listByConditionWith ⟨threads, defaultIdField⟩ { distinct := true }
        [pinned]).outcome = .ok [pinnedPost] := by
  have hrows : (threads.findAll { distinct := true }).outcome = .ok threads.documents := rfl
  have hpinned : (threads.findAll ([pinned].foldl Condition.addJoin { distinct := true })).outcome =
      .ok [pinnedPost] := rfl
  have halternatives : ∀ j ∈ [pinned], j.Each fun _ filter => filter.alternatives = [] := by
    intro j hj
    obtain rfl := List.mem_singleton.mp hj
    exact .intro rfl (by simp [pinned])
  obtain ⟨hsublist, hlist⟩ := findAll_sublist rfl halternatives hrows hpinned
  exact ⟨hsublist, hlist defaultIdField⟩

end Store

end Criteria
