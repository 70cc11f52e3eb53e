import Criteria.Proofs.Catalog.Lookups
import Criteria.Proofs.Join.Keys

/-!
# Listed identifiers

The list of identifiers takes the value at the key that the identifier's path spells, and a
look-up follows the path through nested objects. The two coincide if and only if the path has no
dot, and then a look-up by a listed identifier finds a document.

## Main definitions

- `Catalog.idOf`: the identifier of a document, as a look-up reads it

## Main statements

- `Json.get?_eq_resolve?_iff`: the paths that are keys
- `Catalog.outcome_findIds`: the listed identifiers from the rows of one query
- `Catalog.findIds_agrees`: listed identifiers and look-ups
-/

namespace Criteria

namespace Json

theorem get?_singleton (key : String) (value : Json) :
    (object [(key, value)]).get? key = some value := by
  simp [get?, lookup?]

theorem get?_singleton_of_ne {key other : String} (h : other ≠ key) (value : Json) :
    (object [(key, value)]).get? other = none := by
  simp [get?, lookup?, Ne.symm h]

theorem resolve?_of_not_mem {path : String} (h : '.' ∉ path.toList) (row : Json) :
    row.resolve? path = row.get? path := by
  rw [resolve?, Path.parts_of_not_mem h, follow?]
  cases row.get? path <;> rfl

/-- A path with a dot does not lead to the value at the key that it spells. -/
theorem resolve?_singleton_of_mem {path : String} (h : '.' ∈ path.toList) (value : Json) :
    (object [(path, value)]).resolve? path = none := by
  rw [resolve?]
  cases hparts : Path.parts path with
  | nil => exact absurd hparts (Path.parts_ne_nil path)
  | cons first rest =>
    -- the first part has no dot, so it is another key
    have hfirst : first ∈ Path.parts path := hparts ▸ List.mem_cons_self
    have hne : first ≠ path := by
      rintro rfl
      exact Path.not_mem_of_mem_parts hfirst h
    rw [follow?, get?_singleton_of_ne hne]
    rfl

/-- A path is a key of every document exactly if it has no dot. -/
theorem get?_eq_resolve?_iff {path : String} :
    (∀ row : Json, (row.get? path).getD .null = (row.resolve? path).getD .null) ↔
      '.' ∉ path.toList := by
  constructor
  · intro hagree hdot
    have hrow := hagree (object [(path, .bool true)])
    rw [get?_singleton, resolve?_singleton_of_mem hdot] at hrow
    cases hrow
  · intro hdot row
    rw [resolve?_of_not_mem hdot]

theorem isSingle_ofJson {j : Json} (h : j.IsFiniteScalar) : (Value.ofJson j).IsSingle := by
  rw [Value.isSingle_iff]
  cases j with
  | bool b => exact ⟨rfl, rfl⟩
  | text s => exact ⟨rfl, rfl⟩
  | number n =>
    cases n with
    | double x => exact ⟨rfl, rfl⟩
    | int i =>
      rw [Value.ofJson, Value.ofNumber]
      split <;> exact ⟨rfl, rfl⟩
  | null | array _ | object _ => exact h.elim

end Json

namespace Catalog

variable {k : Catalog} {c : Condition} {id : Value}

/-- The identifier of a document as the parameter of a look-up reads it, or null. -/
def idOf (k : Catalog) (row : Json) : Json :=
  (Scope.attribute? ⟨row, []⟩ ⟨.root, k.idField⟩).getD .null

theorem idOf_eq (k : Catalog) (row : Json) : k.idOf row = (row.resolve? k.idField).getD .null := by
  have hbase : Scope.base? ⟨row, []⟩ .root = some row := rfl
  rw [idOf, Scope.attribute?, hbase, Option.bind_some]
  split
  · rename_i hnull
    rw [hnull]
    rfl
  · rfl

theorem resolve?_of_idOf {row j : Json} (hj : j.IsFiniteScalar) (h : k.idOf row = j) :
    row.resolve? k.idField = some j := by
  rw [idOf_eq] at h
  cases hrow : row.resolve? k.idField with
  | some value =>
    rw [hrow] at h
    exact congrArg some h
  | none =>
    rw [hrow] at h
    subst h
    exact hj.elim

/-- A document has the identifier that it is listed with. -/
theorem identifies_of_idOf {row j : Json} (hj : j.IsFiniteScalar) (h : k.idOf row = j) :
    k.Identifies (.ofJson j) row :=
  Criterion.truthOn_equals_of_compare? (resolve?_of_idOf hj h) (Json.compare?_toJson_ofJson hj)

/-- The identifiers are those of the rows of one query, whether this one loads its joins or
not. -/
theorem outcome_findIds (k : Catalog) (c : Condition) :
    (k.findIds c).outcome = (k.store.findAll c).outcome.map fun rows =>
      rows.map fun row => (row.get? k.idField).getD .null := by
  have herase : ({ c with suppressFetch := true } : Condition).eraseFetch = c.eraseFetch := rfl
  rw [findIds, Logged.outcome_bind_pure, Store.findAll,
    Store.outcome_run_eq k.store herase .documents .documents]
  rfl

/-- A look-up without joins finds the first document with the identifier. -/
theorem exists_findById_of_identifies {d : Json} (hvalid : Path.isValid k.idField = true)
    (hid : id.IsSingle) (hd : d ∈ k.store.documents) (h : k.Identifies id d) :
    ∃ first, (k.findById id []).outcome = .ok first ∧ k.Identifies id first := by
  have haccepted : (k.idCriterion id).Accepted :=
    .inr ⟨(Criterion.isValid_eq_true_iff k.idField).mp hvalid, hid.2⟩
  obtain ⟨rows, hrows⟩ := exists_rowsById_of_accepted haccepted
  obtain ⟨first, hfirst, hidentifies⟩ := exists_firstWith?_eq_some hd h
  refine ⟨first, ?_, hidentifies⟩
  rw [outcome_findById_of_rowsById (Value.isSingle_iff.mp hid).1 hrows, hfirst]
  rfl

/-- A look-up is refused if the path of the identifier is blank. -/
theorem outcome_findById_of_isBlank {paths : List String} {joins : List Join}
    (hdot : '.' ∉ k.idField.toList) (hblank : Text.isBlank k.idField = true)
    (hid : id.isNull = false) (hjoins : Join.ofPaths paths = .ok joins) :
    (k.findById id paths).outcome = .error (.condition (.emptySegment k.idField)) := by
  have hpart : ∃ part ∈ Path.parts k.idField, Text.isBlank part = true := by
    rw [Path.parts_of_not_mem hdot]
    exact ⟨k.idField, List.mem_singleton.mpr rfl, hblank⟩
  have hcheck : checkActives (joins.foldl Condition.addJoin (k.hasId id)).consulted =
      .error (.emptySegment k.idField) := by
    rw [(Condition.grownBy_of_ofPaths hjoins (k.hasId id)).consulted_eq, consulted_hasId,
      checkActives_singleton (isSkipped_idCriterion hid)]
    exact Criterion.checkActive_of_blank hpart
  rw [outcome_findById hid, outcome_rowsById_of_ofPaths hjoins,
    Store.outcome_findAll_of_checkActives_eq_error hcheck]
  rfl

/-- The listed identifiers are those that look-ups read, if the path of the identifier has no dot.

1. A document is listed with the identifier that a look-up reads in it, whatever the document is,
   exactly if the path has no dot.
2. Then there is one identifier for each row of the query, in the order of the rows, and null
   where there is none.
3. A look-up by an identifier that is listed, and that is a boolean, a text or a finite number,
   does not miss, whatever joins it loads. Without joins it finds a document with this identifier.
   If the path is blank, every look-up is refused instead. -/
theorem findIds_agrees (k : Catalog) (c : Condition) :
    ((∀ row : Json, (row.get? k.idField).getD .null = k.idOf row) ↔ '.' ∉ k.idField.toList) ∧
      ('.' ∉ k.idField.toList →
        (k.findIds c).outcome = (k.store.findAll c).outcome.map (fun rows => rows.map k.idOf) ∧
        ∀ ids, (k.findIds c).outcome = .ok ids → ∀ j ∈ ids, j.IsFiniteScalar →
          (∀ paths e, (k.findById (.ofJson j) paths).outcome = .error e →
            e.isNotFound = false) ∧
          (Text.isBlank k.idField = false →
            ∃ d, (k.findById (.ofJson j) []).outcome = .ok d ∧ k.Identifies (.ofJson j) d) ∧
          (Text.isBlank k.idField = true → ∀ paths joins, Join.ofPaths paths = .ok joins →
            (k.findById (.ofJson j) paths).outcome =
              .error (.condition (.emptySegment k.idField)))) := by
  have hkeys : (∀ row : Json, (row.get? k.idField).getD .null = k.idOf row) ↔
      '.' ∉ k.idField.toList := by
    simp only [idOf_eq]
    exact Json.get?_eq_resolve?_iff
  refine ⟨hkeys, fun hdot => ?_⟩
  have houtcome : (k.findIds c).outcome =
      (k.store.findAll c).outcome.map fun rows => rows.map k.idOf := by
    simp only [outcome_findIds, hkeys.mpr hdot]
  refine ⟨houtcome, fun ids hids j hj hscalar => ?_⟩
  have hsingle := Json.isSingle_ofJson hscalar
  have hnull := (Value.isSingle_iff.mp hsingle).1
  -- the identifier is that of a row, which is a document of the store
  obtain ⟨row, hrow, hidentifies⟩ : ∃ row ∈ k.store.documents, k.Identifies (.ofJson j) row := by
    cases hrows : (k.store.findAll c).outcome with
    | error e =>
      rw [houtcome, hrows] at hids
      cases hids
    | ok rows =>
      rw [houtcome, hrows] at hids
      obtain rfl := Except.ok.inj hids
      obtain ⟨row, hrow, hlisted⟩ := List.mem_map.mp hj
      exact ⟨row, (Store.truthOn_of_mem_findAll hrows hrow).1, identifies_of_idOf hscalar hlisted⟩
  refine ⟨fun paths e => isNotFound_eq_false_of_identifies hnull hrow hidentifies,
    fun hblank => ?_, fun hblank paths joins => outcome_findById_of_isBlank hdot hblank hnull⟩
  refine exists_findById_of_identifies ?_ hsingle hrow hidentifies
  rw [Path.isValid, Path.parts_of_not_mem hdot, List.all_cons, hblank]
  rfl

/-- Two users with identifiers at a key of their own, one of whom has none. -/
def users : Catalog where
  store := {
    entity := "users"
    documents := [.object [("name", .text "a")], .object [("uuid", .text "b-2")]] }
  idField := "uuid"

/-- The user without an identifier is listed with null, and the other one is found. -/
theorem findIds_agrees_users :
    (users.findIds {}).outcome = .ok [.null, .text "b-2"] ∧
      users.store.documents.map users.idOf = [.null, .text "b-2"] ∧
      ∃ d, (users.findById (.text "b-2") []).outcome = .ok d ∧
        users.Identifies (.text "b-2") d := by
  have hids : (users.findIds {}).outcome = .ok [.null, .text "b-2"] := by
    rfl
  have hrows : (users.store.findAll {}).outcome = .ok users.store.documents := by
    rfl
  obtain ⟨houtcome, hlookup⟩ := (findIds_agrees users {}).2 (by decide)
  have hlisted : (Value.ofJson (.text "b-2")) = .text "b-2" := by rw [Value.ofJson]
  refine ⟨hids, ?_, ?_⟩
  · rw [hids, hrows] at houtcome
    exact (Except.ok.inj houtcome).symm
  · obtain ⟨-, hfound, -⟩ := hlookup _ hids (.text "b-2") (by simp) trivial
    rw [hlisted] at hfound
    exact hfound (by decide)

/-- Two posts: the first one holds its identifier in an object, and the second one has the path
as a key. -/
def tagged : Catalog where
  store := {
    entity := "posts"
    documents := [.object [("meta", .object [("id", .text "a-1")])],
      .object [("meta.id", .text "b-2")]] }
  idField := "meta.id"

/-- If the path has a dot, the identifiers that are listed are not those that look-ups read, and
the look-up by one of them misses. -/
theorem findIds_nested_identifier :
    (tagged.findIds {}).outcome = .ok [.null, .text "b-2"] ∧
      (tagged.store.findAll {}).outcome.map (fun rows => rows.map tagged.idOf) =
        .ok [.text "a-1", .null] ∧
      (tagged.findById (.text "b-2") []).outcome =
        .error (.notFound "posts" "meta.id = 'b-2'") := by
  refine ⟨?_, ?_, ?_⟩ <;> rfl

end Catalog

end Criteria
