import Criteria.Catalog
import Criteria.Proofs.Store.Rows

/-!
# Searching for a text

A search asks for one alternative for each field: the field contains the text, whatever the case.
With at least one field it answers with the documents that have such a field. Without fields the
group of alternatives is empty and restricts nothing, so a search answers with all documents.

## Main definitions

- `Json.Mentions`: a field of a document contains a text

## Main statements

- `Catalog.truthOn_contains_iff`: the documents that a search selects
- `Catalog.search_answers`: the answer to a search
-/

namespace Criteria

namespace Truth

theorem or_eq_true_iff {a b : Truth} : a.or b = .true ↔ a = .true ∨ b = .true := by
  cases a <;> cases b <;> simp [or]

theorem any_eq_true_iff {ts : List Truth} : any ts = .true ↔ ∃ t ∈ ts, t = .true := by
  induction ts with
  | nil => simp
  | cons t rest ih => simp only [any_cons, or_eq_true_iff, ih, List.exists_mem_cons_iff]

/-- The alternatives of a filter restrict nothing if there are none. -/
theorem all_pool_eq_true_iff {ts : List Truth} :
    all (pool ts) = .true ↔ ts = [] ∨ ∃ t ∈ ts, t = .true := by
  cases ts with
  | nil => simp [pool]
  | cons t rest =>
    rw [pool, all_cons, all_nil, and_true, any_eq_true_iff, or_iff_right (List.cons_ne_nil t rest)]

end Truth

/-- The criterion that a field contains a text, whatever the case. -/
def Criterion.containing (text field : String) : Criterion :=
  ⟨field, .text text, .containsIgnoreCase⟩

/-- A field of a document contains a text, whatever the case. -/
def Json.Mentions (document : Json) (text field : String) : Prop :=
  (Criterion.containing text field).truthOn (some document) = .true

instance (document : Json) (text field : String) : Decidable (document.Mentions text field) :=
  inferInstanceAs (Decidable ((Criterion.containing text field).truthOn (some document) = .true))

namespace Catalog

variable {text : String} {fields : List String}

/-- The alternatives of a search, one for each field. -/
theorem contains_eq (text : String) (fields : List String) :
    contains text fields =
      { filter := { orGroup := some { criteria := fields.map (Criterion.containing text) } } } := by
  have hadd (f : Filter) : fields.foldl
      (fun f field => f.add field (.text text) .containsIgnoreCase) f =
        { f with criteria := f.criteria ++ fields.map (Criterion.containing text) } := by
    induction fields generalizing f with
    | nil =>
      obtain ⟨criteria, group⟩ := f
      rw [List.map_nil, List.append_nil]
      rfl
    | cons field rest ih =>
      rw [List.foldl_cons, ih, List.map_cons, List.append_cons]
      rfl
  rw [contains, hadd]
  rfl

/-- All criteria of a search are accepted, if its fields are paths. -/
theorem accepted_contains (hfields : ∀ field ∈ fields, Path.isValid field = true) :
    ∀ c ∈ (contains text fields).filter.consulted, c.Accepted := by
  rw [contains_eq]
  intro c hc
  obtain ⟨field, hfield, rfl⟩ := List.mem_map.mp hc
  have htext : (Value.text text).Fits .text := nofun
  exact .inr ⟨(Criterion.isValid_eq_true_iff field).mp (hfields field hfield), htext⟩

/-- A search selects the documents with a field that contains the text, or all documents if there
are no fields. -/
theorem truthOn_contains_iff {document : Json} :
    (contains text fields).filter.truthOn document = .true ↔
      fields = [] ∨ ∃ field ∈ fields, document.Mentions text field := by
  -- a text is no null value, so no criterion of a search is skipped
  have hactive : (fields.map (Criterion.containing text)).filter (fun c => !c.isSkipped) =
      fields.map (Criterion.containing text) :=
    List.filter_eq_self.mpr fun c hc => by
      obtain ⟨field, -, rfl⟩ := List.mem_map.mp hc
      rfl
  rw [contains_eq]
  simp only [Filter.truthOn, truthsOn, Filter.alternatives, hactive, List.filter_nil, List.map_nil,
    Truth.all_nil, Truth.true_and, Truth.all_pool_eq_true_iff, List.map_eq_nil_iff, List.mem_map,
    exists_exists_and_eq_and]
  rfl

/-- A search without joins runs if its fields are paths. -/
theorem outcome_searchPage {k : Catalog} {request : Option PageRequest} {r : PageRequest}
    (text : String) (hfields : ∀ field ∈ fields, Path.isValid field = true)
    (hrequest : k.store.settings.pages.resolve request = .ok r) (hsort : r.sortKeys = []) :
    (k.searchPage text fields request).outcome = .ok (.cut (k.store.documents.filter fun d =>
      fields = [] ∨ ∃ field ∈ fields, d.Mentions text field) r) := by
  have hjoins : (contains text fields).joins = [] := rfl
  rw [searchPage, Store.outcome_findPage hrequest, hsort,
    Store.outcome_findAll_of_joins_eq_nil hjoins (accepted_contains hfields)]
  simp only [Except.map, sortDocuments_nil, truthOn_contains_iff]

/-- A search answers with a page of the documents that have a field that contains the text.

1. With at least one field these are exactly the rows, each document of the store once and in its
   place, and their number is the number of all rows.
2. Without fields there is no such document, and a search answers with all documents instead. -/
theorem search_answers {k : Catalog} {request : Option PageRequest} {r : PageRequest}
    (text : String) (hfields : ∀ field ∈ fields, Path.isValid field = true)
    (hrequest : k.store.settings.pages.resolve request = .ok r) (hsort : r.sortKeys = []) :
    let found := k.store.documents.filter fun d => ∃ field ∈ fields, d.Mentions text field
    (fields ≠ [] → ∃ page, (k.searchPage text fields request).outcome = .ok page ∧
      (k.search text fields request).outcome = .ok page.content ∧
      page = .cut found r ∧ page.totalElements = found.length) ∧
    (fields = [] → found = [] ∧
      (k.searchPage text fields request).outcome = .ok (.cut k.store.documents r) ∧
      (k.search text fields request).outcome = .ok (Page.cut k.store.documents r).content) := by
  have hpage := outcome_searchPage text hfields hrequest hsort
  have hsearch : (k.search text fields request).outcome =
      (k.searchPage text fields request).outcome.map Page.content := by
    rw [search, Logged.outcome_bind_pure]
  refine ⟨fun hsome => ?_, fun hnone => ?_⟩
  · simp only [hsome, false_or] at hpage
    refine ⟨_, hpage, ?_, rfl, rfl⟩
    rw [hsearch, hpage]
    rfl
  · subst hnone
    simp only [true_or, decide_true, List.filter_true] at hpage
    refine ⟨by simp, hpage, ?_⟩
    rw [hsearch, hpage]
    rfl

/-- Two posts, one of which has the name of its author in an object. -/
def named : Catalog where
  store := {
    entity := "posts"
    documents := [.object [("author", .object [("name", .text "Cid")])],
      .object [("title", .text "Lifetimes")]] }

/-- The name is found in another case, and the title that is missing does no harm. -/
theorem search_answers_named :
    ∃ page, (named.searchPage "CID" ["title", "author.name"] none).outcome = .ok page ∧
      (named.search "CID" ["title", "author.name"] none).outcome = .ok page.content ∧
      page.content = [.object [("author", .object [("name", .text "Cid")])]] ∧
      page.totalElements = 1 := by
  have hfields : ∀ field ∈ ["title", "author.name"], Path.isValid field = true := by
    decide
  have hrequest : named.store.settings.pages.resolve none =
      .ok named.store.settings.pages.defaultRequest := rfl
  have hfound : named.store.documents.filter
      (fun d => ∃ field ∈ ["title", "author.name"], d.Mentions "CID" field) =
        [.object [("author", .object [("name", .text "Cid")])]] := by
    rfl
  obtain ⟨page, hpage, hrows, hcut, htotal⟩ :=
    (search_answers "CID" hfields hrequest rfl).1 nofun
  refine ⟨page, hpage, hrows, ?_, ?_⟩
  · rw [hcut, hfound]
    rfl
  · rw [htotal, hfound]
    rfl

/-- Without fields a search finds both posts, although neither has a field that contains the
text. -/
theorem search_without_fields :
    ∃ page, (named.searchPage "CID" [] none).outcome = .ok page ∧
      page.content = named.store.documents ∧ page.totalElements = 2 ∧
      named.store.documents.filter
        (fun d => ∃ field ∈ ([] : List String), d.Mentions "CID" field) = [] := by
  have hnone : ∀ field ∈ [], Path.isValid field = true := nofun
  exact ⟨_, outcome_searchPage "CID" hnone rfl rfl, rfl, rfl, rfl⟩

end Catalog

end Criteria
