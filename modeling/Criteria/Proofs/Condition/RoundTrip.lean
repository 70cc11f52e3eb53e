import Criteria.Proofs.Condition.Builder
import Criteria.Proofs.Condition.Settling
import Criteria.Proofs.Json.Parsing
import Criteria.Proofs.Plan.Acceptance

/-!
# Conditions that are written and read again

The text of a condition that can be built and that is well formed is read as the same
condition, but for empty filters of joins. Those do not count: the condition that is read is
written in the same way, and has the same plans.

## Main definitions

- `Condition.declared`: the document of a condition with the fields in the declared order

## Main statements

- `Filter.render_declared`: the text of a filter in messages is that of its document
- `Condition.read_written`: the text of a condition is read as the condition
-/

namespace Criteria

section Declared

def Criterion.declared (c : Criterion) : Json :=
  .object [("path", .text c.path), ("value", c.value.toJson), ("operator", .text c.operator.name)]

/-- The document of a filter with the fields in the declared order. -/
def Filter.declared : Filter → Json
  | ⟨criteria, none⟩ => .object [("parameters", .array (criteria.map Criterion.declared))]
  | ⟨criteria, some group⟩ =>
    .object
      [("parameters", .array (criteria.map Criterion.declared)), ("or_group", group.declared)]

mutual

/-- The document of a join with the fields in the declared order. -/
def Join.declared : Join → Json
  | ⟨key, kind, filter, children, fetch⟩ =>
    .object <|
      [("key", .text key), ("kind", .text kind.name)] ++
      (if filter.isEmpty then [] else [("filter", filter.declared)]) ++
      (if children.isEmpty then [] else [("children", .array (Join.declaredItems children))]) ++
      [("fetch", .bool fetch)]

def Join.declaredItems : List Join → List Json
  | [] => []
  | j :: rest => Join.declared j :: Join.declaredItems rest

end

/-- The document of a condition with the fields in the declared order. -/
def Condition.declared (c : Condition) : Json :=
  .object <|
    [("filter", c.filter.declared)] ++
    (if c.joins.isEmpty then [] else [("joins", .array (Join.declaredItems c.joins))]) ++
    [("distinct", .bool c.distinct), ("suppress_fetch", .bool c.suppressFetch)]

theorem Filter.renderItems_declared (criteria : List Criterion) :
    Json.renderItems (criteria.map Criterion.declared) =
      Text.joinChars [','] (criteria.map Filter.listedCriterion) := by
  have hcriterion (c : Criterion) : c.declared.render = Filter.listedCriterion c := by
    simp [Criterion.declared, Filter.listedCriterion, Json.render, Json.renderFields]
  match criteria with
  | [] => rfl
  | [c] => exact hcriterion c
  | c :: second :: rest =>
    have hrest := Filter.renderItems_declared (second :: rest)
    rw [List.map_cons] at hrest
    simp only [List.map_cons, Json.renderItems, Text.joinChars, hcriterion, hrest]
    simp

/-- In messages a filter stands as its document does. -/
theorem Filter.render_declared (f : Filter) : f.declared.render = f.listed := by
  match f with
  | ⟨criteria, none⟩ =>
    simp [Filter.declared, Filter.listed, Filter.listedCriteria, Json.render, Json.renderFields,
      Filter.renderItems_declared]
  | ⟨criteria, some group⟩ =>
    have hgroup := Filter.render_declared group
    simp [Filter.declared, Filter.listed, Filter.listedCriteria, Json.render, Json.renderFields,
      Filter.renderItems_declared, hgroup]

theorem Criterion.rearranged_declared (c : Criterion) : c.toJson.Rearranged c.declared := by
  refine Json.rearranged_ofFields (by simp) ?_
  exact Json.fieldsRearranged_refl _

theorem Filter.rearranged_declared (f : Filter) : f.toJson.Rearranged f.declared := by
  have hcriteria (criteria : List Criterion) :
      (Json.array (criteria.map Criterion.toJson)).Rearranged
        (.array (criteria.map Criterion.declared)) := by
    rw [Json.Rearranged]
    exact ⟨_, Json.allRearranged_map fun c _ => c.rearranged_declared, rfl⟩
  match f with
  | ⟨criteria, none⟩ =>
    refine Json.rearranged_ofFields (by simp) ?_
    simpa [Json.fieldsRearranged_iff] using hcriteria criteria
  | ⟨criteria, some group⟩ =>
    have hgroup := Filter.rearranged_declared group
    refine Json.rearranged_ofFields (by simp) ?_
    simpa [Json.fieldsRearranged_iff] using ⟨hcriteria criteria, hgroup⟩

mutual

theorem Join.rearranged_declared (j : Join) : j.toJson.Rearranged j.declared := by
  obtain ⟨key, kind, filter, children, fetch⟩ := j
  have hfilter := filter.rearranged_declared
  have hchildren : (Json.array (Join.toItems children)).Rearranged
      (.array (Join.declaredItems children)) := by
    rw [Json.Rearranged]
    exact ⟨_, Join.allRearranged_declaredItems children, rfl⟩
  rw [Join.toJson, Join.declared]
  cases filter.isEmpty <;> cases children.isEmpty
  all_goals
    refine Json.rearranged_ofFields (by simp) ?_
    simp [Json.fieldsRearranged_iff, Json.rearranged_refl, hfilter, hchildren]

theorem Join.allRearranged_declaredItems (joins : List Join) :
    Json.AllRearranged (Join.toItems joins) (Join.declaredItems joins) := by
  match joins with
  | [] => rw [Join.toItems, Json.AllRearranged, Join.declaredItems]
  | j :: rest =>
    rw [Join.toItems, Json.AllRearranged, Join.declaredItems]
    exact ⟨_, _, Join.rearranged_declared j, Join.allRearranged_declaredItems rest, rfl⟩

end

theorem Condition.rearranged_declared (c : Condition) : c.toJson.Rearranged c.declared := by
  have hfilter := c.filter.rearranged_declared
  have hjoins : (Json.array (Join.toItems c.joins)).Rearranged
      (.array (Join.declaredItems c.joins)) := by
    rw [Json.Rearranged]
    exact ⟨_, Join.allRearranged_declaredItems c.joins, rfl⟩
  rw [Condition.toJson, Condition.declared]
  cases c.joins.isEmpty
  all_goals
    refine Json.rearranged_ofFields (by simp) ?_
    simp [Json.fieldsRearranged_iff, Json.rearranged_refl, hfilter, hjoins]

end Declared

namespace Join

mutual

theorem declared_settle (j : Join) : j.settle.declared = j.declared := by
  obtain ⟨key, kind, filter, children, fetch⟩ := j
  rw [settle, declared, declared, filter.isEmpty_settle, isEmpty_settleAll,
    declaredItems_settleAll children]
  cases hfilter : filter.isEmpty with
  | true => rfl
  | false => rw [Filter.settle_of_not_isEmpty hfilter]

theorem declaredItems_settleAll (joins : List Join) :
    declaredItems (settleAll joins) = declaredItems joins := by
  match joins with
  | [] => rfl
  | j :: rest =>
    rw [settleAll, declaredItems, declaredItems, declared_settle j, declaredItems_settleAll rest]

end

end Join

namespace Condition

theorem declared_settle (c : Condition) : c.settle.declared = c.declared := by
  rw [declared, declared, settle, Join.isEmpty_settleAll, Join.declaredItems_settleAll]

/-- The text of a document that is read as a condition is read so by the reader of texts. -/
theorem outcome_ofText {c : Condition} {j : Json} (hlegible : j.Legible)
    (hread : (reader maxDepth (.ofJson j)).outcome = .ok c) (hcheck : c.check = .ok ()) :
    (ofText j.compact).outcome = .ok c := by
  rw [outcome_ofText_of_read (Reader.outcome_readText hlegible hread), hcheck]
  rfl

/-- A condition that can be built, that is well formed, of which the numbers read back and which
does not nest too deep is read from its text, with the fields in the declared order or in any
other. What is read is the condition with the empty filters of its joins replaced by the
default filter. It is written as the condition is, and has the same plans. -/
theorem read_written {c : Condition} (hbuilt : c.Built) (hcheck : c.check = .ok ())
    (hvalues : ∀ v ∈ c.values, v.Readable) (hdepth : c.toJson.depth ≤ maxDepth) :
    (ofText c.declared.compact).outcome = .ok c.settle ∧
      (∀ {j : Json}, c.toJson.Rearranged j → (ofText j.compact).outcome = .ok c.settle) ∧
      c.settle.declared = c.declared ∧ c.settle.toJson = c.toJson ∧
      ∀ purpose, c.settle.compile purpose = c.compile purpose := by
  have hread {j : Json} (hj : c.toJson.Rearranged j) :
      (ofText j.compact).outcome = .ok c.settle := by
    have hfits : j.depth ≤ maxDepth := by rwa [hj.depth_eq]
    have hlegible : j.Legible := hj.legible (legible_toJson hbuilt.tidy hvalues)
    have hsettled : c.settle.check = .ok () := by rwa [check_settle]
    exact outcome_ofText hlegible (reads_toJson hbuilt.tidy hvalues hj hfits) hsettled
  exact ⟨hread c.rearranged_declared, hread, c.declared_settle, c.toJson_settle,
    c.compile_settle⟩

/-- One half, with the rank that follows from its exponent. -/
def half : Double :=
  .ofRank false 0x3FE0000000000000

theorem readsBack_half : (Number.double half).ReadsBack := by
  have htext : (Number.double half).text = ['0', '.', '5'] := by decide +kernel
  have hvalue : (NumberText.mk false [0] (some [5]) none).value? = some (.double half) := by
    decide +kernel
  refine ⟨⟨false, [0], some [5], none⟩, ?_, hvalue⟩
  rw [htext]
  rfl

/-- The team of an author, as long as it is active; its rows are not to be loaded. -/
def activeTeam : Join where
  key := "team"
  kind := .inner
  filter := { criteria := [⟨"active", .bool true, .equals⟩] }
  fetch := false

/-- Posts by their title, their score and their likes, with the teams of their authors. The
filter on the authors has an empty group of alternatives. -/
def scoredPosts : Condition where
  filter :=
    { criteria := [⟨"title", .text "\"new\"\n", .equals⟩, ⟨"score", .float half, .greaterThan⟩]
      orGroup := some { criteria := [⟨"likes", .list [.int (-3), .int 7], .between⟩] } }
  joins :=
    [{ key := "author", kind := .left, filter := { orGroup := some {} }, children := [activeTeam] }]
  distinct := true

theorem read_written_scoredPosts :
    scoredPosts.Built ∧ scoredPosts.check = .ok () ∧ (∀ v ∈ scoredPosts.values, v.Readable) ∧
      scoredPosts.toJson.depth ≤ maxDepth ∧
      (ofText scoredPosts.declared.compact).outcome =
        .ok { scoredPosts with
          joins := [{ key := "author", kind := .left, children := [activeTeam] }] } := by
  have hauthor : Join.PlainKey "author" := ⟨rfl, rfl⟩
  have hteam : Join.PlainKey "team" := ⟨rfl, rfl⟩
  have hbuilt : scoredPosts.Built :=
    built_iff_tidy.mpr
      ⟨Join.plain_singleton hauthor (Join.plain_singleton hteam .nil),
        Join.ordered_singleton (Join.ordered_singleton .nil)⟩
  have hcheck : scoredPosts.check = .ok () := rfl
  have hvalues : ∀ v ∈ scoredPosts.values, v.Readable := by
    have heq : scoredPosts.values =
        [.text "\"new\"\n", .float half, .list [.int (-3), .int 7], .bool true] := rfl
    rw [heq]
    simp only [List.forall_mem_cons, List.not_mem_nil, false_implies, implies_true, and_true,
      Value.Readable, Value.AllReadable, true_and]
    exact ⟨⟨by decide, readsBack_half⟩, by decide, by decide⟩
  have hdepth : scoredPosts.toJson.depth ≤ maxDepth := by decide
  obtain ⟨hread, -⟩ := read_written hbuilt hcheck hvalues hdepth
  exact ⟨hbuilt, hcheck, hvalues, hdepth, hread⟩

end Condition

end Criteria
