import Criteria.Catalog
import Criteria.Proofs.Plan.Modes

/-!
# All answers agree on the rows

A store answers a condition in several shapes: with all rows, with one page of them, with
their number, with the first of them, or with whether there is one. All of these are about
the same rows, and fail in the same way.

## Main statements

- `Store.outcome_run_eq`: what is to be loaded does not change the rows
- `sortDocuments_nil`: without fields to sort by, the rows keep their order
- `Store.answers_agree`: all shapes of an answer are about the rows of one run
-/

namespace Criteria

theorem length_sortDocuments (fields : List SortField) (documents : List Json) :
    (sortDocuments fields documents).length = documents.length :=
  List.length_mergeSort documents

/-- Without fields to sort by, documents keep their order. -/
theorem sortDocuments_nil (documents : List Json) : sortDocuments [] documents = documents := by
  refine List.mergeSort_of_pairwise (List.pairwise_iff_forall_sublist.mpr ?_)
  intro a b _
  rfl

/-- Under limits that make sense, a page may have a single row. -/
theorem resolve_single {settings : Settings} (h : settings.check = .ok ()) :
    settings.pages.resolve (some (.ofSize 0 1)) = .ok (.ofSize 0 1) := by
  have hmax : settings.pages.maxSize ≠ 0 := by
    intro hzero
    rw [Settings.check, hzero, if_pos rfl] at h
    split at h <;> cases h
  have hsize : ¬ settings.pages.maxSize < 1 := by omega
  have hone : (PageRequest.ofSize 0 1).size = 1 := rfl
  rw [PageLimits.resolve, hone, if_neg Nat.one_ne_zero, if_neg hsize]

namespace Page

theorem head?_content_cut {α : Type} (rows : List α) :
    (cut rows (.ofSize 0 1)).content.head? = rows.head? := by
  cases rows <;> rfl

end Page

namespace Store

theorem outcome_execute (s : Store) (p : Plan) :
    (s.execute p).outcome =
      (p.select s.settings.bindingLimit s.documents).mapError .execution := by
  unfold execute
  split <;> rename_i hselect <;> rw [hselect] <;> rfl

/-- The rows of a plan, however it was compiled. -/
theorem outcome_run (s : Store) (c : Condition) (purpose : Purpose) :
    (s.run c purpose).outcome =
      ((c.compile purpose).mapError .condition).bind fun p =>
        ((p.select s.settings.bindingLimit s.documents).mapError .execution).map
          (·.documents) := by
  rw [run, Logged.outcome_bind]
  congr 1
  funext p
  rw [Logged.outcome_bind_pure, outcome_execute]

/-- Conditions that differ only in what they load select the same rows, whatever for. -/
theorem outcome_run_eq (s : Store) {c c' : Condition} (h : c'.eraseFetch = c.eraseFetch)
    (purpose purpose' : Purpose) :
    (s.run c' purpose').outcome = (s.run c purpose).outcome := by
  have hcompile := Condition.compile_unloaded_eq h purpose purpose'
  rw [outcome_run, outcome_run]
  cases hc' : c'.compile purpose' with
  | error e' =>
    cases hc : c.compile purpose with
    | error e =>
      rw [hc, hc'] at hcompile
      cases hcompile
      rfl
    | ok p =>
      rw [hc, hc'] at hcompile
      cases hcompile
  | ok p' =>
    cases hc : c.compile purpose with
    | error e =>
      rw [hc, hc'] at hcompile
      cases hcompile
    | ok p =>
      rw [hc, hc'] at hcompile
      have hplans : p'.unloaded = p.unloaded := Except.ok.inj hcompile
      -- a selection is the same for a plan and for its unloaded form
      have hselect : p'.select s.settings.bindingLimit s.documents =
          p.select s.settings.bindingLimit s.documents := by
        rw [← p'.select_unloaded, hplans, p.select_unloaded]
      show ((p'.select s.settings.bindingLimit s.documents).mapError _).map _ = _
      rw [hselect]
      rfl

theorem outcome_findAllSorted (s : Store) (c : Condition) (fields : List SortField) :
    (s.findAllSorted c fields).outcome = (s.findAll c).outcome.map (sortDocuments fields) := by
  rw [findAllSorted, Logged.outcome_bind_pure]

/-- A page is cut out of all rows, in whichever order they are asked for. -/
theorem outcome_findPage {s : Store} {request : Option PageRequest} {r : PageRequest}
    (h : s.settings.pages.resolve request = .ok r) (c : Condition) :
    (s.findPage c request).outcome =
      (s.findAll c).outcome.map fun rows => .cut (sortDocuments r.sortKeys rows) r := by
  rw [findPage, Logged.outcome_bind, Logged.outcome_ofExcept, h]
  show (_ >>= _ : Reporting QueryError (Page Json)).outcome = _
  rw [Logged.outcome_bind_pure, outcome_findAllSorted]
  cases (s.findAll c).outcome <;> rfl

theorem outcome_count (s : Store) (c : Condition) :
    (s.count c).outcome = (s.findAll c).outcome.map List.length := by
  rw [count, Logged.outcome_bind_pure, findAll, s.outcome_run_eq rfl .documents .number]

theorem outcome_holds (s : Store) (c : Condition) :
    (s.holds c).outcome = (s.findAll c).outcome.map fun rows => !rows.isEmpty := by
  rw [holds, Logged.outcome_bind_pure, outcome_count]
  cases (s.findAll c).outcome with
  | error e => rfl
  | ok rows => cases rows <;> rfl

theorem outcome_findFirst {s : Store} (h : s.settings.check = .ok ()) (idField : String)
    (c : Condition) :
    (Catalog.findFirst ⟨s, idField⟩ c).outcome = (s.findAll c).outcome.map List.head? := by
  have hkeys : (PageRequest.ofSize 0 1).sortKeys = [] := rfl
  rw [Catalog.findFirst, Logged.outcome_bind_pure, outcome_findPage (resolve_single h), hkeys]
  cases (s.findAll c).outcome with
  | error e => rfl
  | ok rows =>
    show Except.ok (Page.cut (sortDocuments [] rows) (.ofSize 0 1)).content.head? = _
    rw [sortDocuments_nil, Page.head?_content_cut]
    rfl

/-- All shapes of an answer are about the rows of one run, and fail as it fails: a count is the
number of rows, and so is the total of a page that is allowed; there is an answer if there is a
row, and the first answer is the first row. What is to be loaded, and for what purpose, changes
nothing but the modes of a plan, and so no row. -/
theorem answers_agree {s : Store} {request : Option PageRequest} {r : PageRequest}
    (hsettings : s.settings.check = .ok ())
    (hrequest : s.settings.pages.resolve request = .ok r) (idField : String) (c : Condition) :
    (s.count c).outcome = (s.findAll c).outcome.map List.length ∧
    (s.findPage c request).outcome.map Page.totalElements =
      (s.findAll c).outcome.map List.length ∧
    (s.holds c).outcome = (s.findAll c).outcome.map (fun rows => !rows.isEmpty) ∧
    (Catalog.findFirst ⟨s, idField⟩ c).outcome = (s.findAll c).outcome.map List.head? ∧
    ∀ c', c'.eraseFetch = c.eraseFetch → ∀ purpose purpose',
      (c'.compile purpose').map Plan.unloaded = (c.compile purpose).map Plan.unloaded ∧
      (s.run c' purpose').outcome = (s.run c purpose).outcome ∧
      (s.findPage c' request).outcome = (s.findPage c request).outcome := by
  refine ⟨s.outcome_count c, ?_, s.outcome_holds c, outcome_findFirst hsettings idField c, ?_⟩
  · rw [outcome_findPage hrequest]
    cases (s.findAll c).outcome with
    | error e => rfl
    | ok rows => exact congrArg Except.ok (length_sortDocuments r.sortKeys rows)
  · intro c' h purpose purpose'
    refine ⟨Condition.compile_unloaded_eq h purpose purpose',
      s.outcome_run_eq h purpose purpose', ?_⟩
    rw [outcome_findPage hrequest, outcome_findPage hrequest, findAll, findAll,
      s.outcome_run_eq h .documents .documents]

/-- Two posts, one of them with two comments. -/
def blog : Store where
  entity := "posts"
  documents :=
    [.object [("comments", .array [.object [], .object []]), ("id", .text "a")],
     .object [("id", .text "b")]]

/-- Posts with their comments, which are loaded. -/
def withComments : Condition where
  joins := [{ key := "comments", kind := .left }]

theorem answers_agree_blog :
    (blog.count withComments).outcome = .ok 3 ∧
      (blog.findPage withComments (some (.ofSize 1 2))).outcome.map Page.totalElements = .ok 3 ∧
      (blog.run { withComments with suppressFetch := true } .number).outcome =
        (blog.findAll withComments).outcome := by
  have hsettings : blog.settings.check = .ok () := rfl
  have hrequest : blog.settings.pages.resolve (some (.ofSize 1 2)) = .ok (.ofSize 1 2) := rfl
  obtain ⟨hcount, hpage, -, -, hflags⟩ :=
    answers_agree hsettings hrequest defaultIdField withComments
  have hrows : (blog.findAll withComments).outcome.map List.length = .ok 3 := rfl
  refine ⟨hcount.trans hrows, hpage.trans hrows, ?_⟩
  exact (hflags { withComments with suppressFetch := true } rfl .documents .number).2.1

end Store

end Criteria
