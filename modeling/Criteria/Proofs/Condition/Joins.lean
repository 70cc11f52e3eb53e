import Criteria.Condition
import Criteria.Proofs.Condition.Filters
import Criteria.Proofs.Join.Keys
import Criteria.Proofs.Join.Reading

/-!
# Joins that are read back

A join leaves an empty filter out of its document, so it comes back with the filter that a
missing field stands for, which has no group of alternatives. Everything else comes back as it
was, if the keys stand for one join each and the siblings are in order.

## Main definitions

- `Filter.settle`, `Join.settle`, `Condition.settle`: what is read back
- `Join.Plain`: siblings with keys that stand for one join each
- `Join.values`, `Condition.values`: the values of all criteria

## Main statements

- `Join.reads_toJson`, `Condition.reads_toJson`: what is written is read
-/

namespace Criteria

open Reader (Reads Entry)

/-- A filter as it comes back when it has been left out if it is empty. -/
def Filter.settle (f : Filter) : Filter :=
  if f.isEmpty then {} else f

theorem JoinKind.ofName?_name (kind : JoinKind) : ofName? kind.name = some kind := by
  cases kind <;> decide

namespace Join

mutual

/-- The join with the empty filters in its tree replaced by the default filter. -/
def settle : Join → Join
  | ⟨key, kind, filter, children, fetch⟩ => ⟨key, kind, filter.settle, settleAll children, fetch⟩

def settleAll : List Join → List Join
  | [] => []
  | j :: rest => settle j :: settleAll rest

end

mutual

def values : Join → List Value
  | ⟨_, _, filter, children, _⟩ => filter.values ++ valuesOf children

def valuesOf : List Join → List Value
  | [] => []
  | j :: rest => values j ++ valuesOf rest

end

inductive Plain : List Join → Prop
  | nil : Plain []
  | cons {j : Join} {rest : List Join} (key : PlainKey j.key) (children : Plain j.children)
      (others : Plain rest) : Plain (j :: rest)

theorem toItems_eq_map (joins : List Join) : toItems joins = joins.map toJson := by
  induction joins with
  | nil => rfl
  | cons j rest ih => rw [toItems, ih, List.map_cons]

theorem settleAll_eq_map (joins : List Join) : settleAll joins = joins.map settle := by
  induction joins with
  | nil => rfl
  | cons j rest ih => rw [settleAll, ih, List.map_cons]

theorem settle_eq (j : Join) :
    j.settle = ⟨j.key, j.kind, j.filter.settle, settleAll j.children, j.fetch⟩ := by
  cases j
  rw [settle]

theorem values_eq (j : Join) : j.values = j.filter.values ++ valuesOf j.children := by
  cases j
  rw [values]

theorem identity_settle (j : Join) : j.settle.identity = j.identity := by
  rw [settle_eq]
  rfl

/-- The order of siblings does not look at filters. -/
theorem Ordered.settleAll {S : List Join} (h : Ordered S) : Ordered (settleAll S) := by
  induction h with
  | nil => exact .nil
  | @cons j rest first _ _ children others =>
    rw [Join.settleAll]
    refine .cons (fun k hk => ?_) (by rwa [settle_eq]) others
    rw [settleAll_eq_map, List.mem_map] at hk
    obtain ⟨k, hk, rfl⟩ := hk
    rw [identity_settle, identity_settle]
    exact first k hk

/-- Siblings in order are what a list of them is read as. -/
theorem ofList_of_ordered {S : List Join} (h : Ordered S) : ofList S = S :=
  (ordered_insertAll h .nil).eq_of_entryAt_eq h fun path => by
    rw [isUnion_insertAll h .nil, entryAt_nil, Option.none_or]

/-- A listing with a plain key is a join already. -/
theorem ofListing_of_plainKey {j : Join} (hkey : PlainKey j.key) (h : Ordered j.children) :
    ofListing ⟨some j.key, j.kind, j.filter, j.children, j.fetch⟩ j.key = .ok j := by
  have hchildren : insertAll j.children [] = j.children := ofList_of_ordered h
  unfold ofListing
  rw [ofPath_of_plainKey hkey]
  simp only [bind, Except.bind, hchildren]
  cases j
  rfl

section Entries

variable (j : Join)

def keyEntry : Entry Listing :=
  ⟨"key", .text j.key, fun l => { l with key := j.key }⟩

def kindEntry : Entry Listing :=
  ⟨"kind", .text j.kind.name, fun l => { l with kind := j.kind }⟩

def filterEntry : Entry Listing :=
  ⟨"filter", j.filter.toJson, fun l => { l with filter := j.filter }⟩

def childrenEntry : Entry Listing :=
  ⟨"children", .array (toItems j.children), fun l => { l with children := settleAll j.children }⟩

def fetchEntry : Entry Listing :=
  ⟨"fetch", .bool j.fetch, fun l => { l with fetch := j.fetch }⟩

/-- The fields that the document of a join may have. -/
def allEntries : List (Entry Listing) :=
  [j.keyEntry, j.kindEntry, j.filterEntry, j.childrenEntry, j.fetchEntry]

def entries : List (Entry Listing) :=
  [j.keyEntry, j.kindEntry] ++ (if j.filter.isEmpty then [] else [j.filterEntry]) ++
    (if j.children.isEmpty then [] else [j.childrenEntry]) ++ [j.fetchEntry]

theorem toJson_eq : j.toJson = .ofFields (j.entries.map Entry.field) := by
  obtain ⟨key, kind, filter, children, fetch⟩ := j
  rw [toJson, entries]
  cases filter.isEmpty <;> cases children.isEmpty <;> rfl

theorem entries_sublist : j.entries.Sublist j.allEntries := by
  rw [entries, allEntries]
  cases j.filter.isEmpty <;> cases j.children.isEmpty <;> simp

/-- What is left out has the default that stands for it. -/
theorem foldl_entries :
    j.entries.foldl (fun l e => e.change l) ({} : Listing) =
      ⟨some j.key, j.kind, j.filter.settle, settleAll j.children, j.fetch⟩ := by
  have hchildren : j.children.isEmpty = true → settleAll j.children = [] := by
    intro h
    rw [List.isEmpty_iff.mp h, settleAll]
  rw [entries, Filter.settle]
  -- the filter and the children are there or not, each on its own
  cases j.filter.isEmpty <;> cases hc : j.children.isEmpty
  all_goals
    simp [keyEntry, kindEntry, filterEntry, childrenEntry, fetchEntry, hchildren, hc]

theorem readBy_allEntries (hfilter : Reads JoinIdentity Filter.reader j.filter.toJson j.filter)
    (hchildren :
      Reads JoinIdentity listReader (.array (toItems j.children)) (settleAll j.children)) :
    ∀ e ∈ j.allEntries, e.ReadBy JoinIdentity fieldNames (readField listReader) := by
  rw [allEntries]
  simp only [List.forall_mem_cons, List.not_mem_nil, false_implies, implies_true, and_true]
  refine ⟨?_, ?_, ?_, ?_, ?_⟩
  · exact Entry.readBy_mk 0 (by decide) ((Reader.reads_text j.key).map _)
  · exact Entry.readBy_mk 1 (by decide)
      ((Reader.reads_case (JoinKind.ofName?_name j.kind)).map _)
  · exact Entry.readBy_mk 2 (by decide) (hfilter.map _)
  · exact Entry.readBy_mk 3 (by decide) (hchildren.map _)
  · exact Entry.readBy_mk 4 (by decide) ((Reader.reads_bool j.fetch).map _)

theorem keys_allEntries :
    j.allEntries.map Entry.key = ["key", "kind", "filter", "children", "fetch"] :=
  rfl

theorem reads_listing (hfilter : Reads JoinIdentity Filter.reader j.filter.toJson j.filter)
    (hchildren :
      Reads JoinIdentity listReader (.array (toItems j.children)) (settleAll j.children)) :
    Reads JoinIdentity listingReader j.toJson
      ⟨some j.key, j.kind, j.filter.settle, settleAll j.children, j.fetch⟩ := by
  rw [toJson_eq, ← foldl_entries]
  refine Reader.reads_record j.entries_sublist (j.readBy_allEntries hfilter hchildren)
    (by rw [keys_allEntries]; decide) ?_ {}
  simp [allEntries, keyEntry, kindEntry, filterEntry, childrenEntry, fetchEntry]

end Entries

theorem reads_siblings {S : List Join} (h : Ordered S)
    (hread : ∀ j ∈ S, Reads JoinIdentity reader j.toJson j.settle) :
    Reads JoinIdentity listReader (.array (toItems S)) (settleAll S) := by
  intro depth j hj hdepth
  rw [toItems_eq_map] at hj
  have hlist := Reader.reads_list hread hj hdepth
  rw [outcome_listReader, hlist, ← settleAll_eq_map]
  exact congrArg _ (ofList_of_ordered h.settleAll)

/-- Each of the siblings is read from its document. The induction is on the siblings with
their children at every depth. -/
theorem reads_toJson {S : List Join} (hkeys : Plain S) (h : Ordered S)
    (hvalues : ∀ v ∈ valuesOf S, v.Readable) :
    ∀ j ∈ S, Reads JoinIdentity reader j.toJson j.settle := by
  induction hkeys with
  | nil => exact fun j hj => absurd hj List.not_mem_nil
  | @cons j rest hkey _ _ below after =>
    rw [valuesOf, List.forall_mem_append, values_eq, List.forall_mem_append] at hvalues
    obtain ⟨hj, hrest⟩ := hvalues
    cases h with
    | cons first children others =>
      rw [List.forall_mem_cons]
      refine ⟨?_, after others hrest⟩
      have hchildren := reads_siblings children (below children hj.2)
      have hlisting := j.reads_listing (j.filter.reads_toJson hj.1) hchildren
      -- a listing with one key is the join that it lists
      have hsettled : Ordered j.settle.children := by
        rw [settle_eq]
        exact children.settleAll
      have hkey' : PlainKey j.settle.key := by rwa [settle_eq]
      have hjoin := ofListing_of_plainKey hkey' hsettled
      rw [settle_eq] at hjoin ⊢
      intro depth doc hdoc hdepth
      rw [reader, read_eq, Logged.outcome_bind, hlisting hdoc hdepth]
      simp only [Except.bind, Reader.require]
      rw [Logged.outcome_bind, Logged.outcome_pure]
      simp only [Except.bind, hjoin]
      rfl

theorem legible_toJson {S : List Join} (hkeys : Plain S)
    (hvalues : ∀ v ∈ valuesOf S, v.Readable) : (Json.array (toItems S)).Legible := by
  rw [Json.Legible]
  induction hkeys with
  | nil => trivial
  | @cons j rest _ _ _ below after =>
    rw [valuesOf, List.forall_mem_append, values_eq, List.forall_mem_append] at hvalues
    obtain ⟨hj, hrest⟩ := hvalues
    rw [toItems, Json.AllLegible, toJson_eq]
    refine ⟨?_, after hrest⟩
    refine Reader.legible_record j.entries_sublist (by rw [keys_allEntries]; decide) ?_
    rw [allEntries]
    simp only [List.forall_mem_cons, List.not_mem_nil, false_implies, implies_true, and_true]
    exact ⟨trivial, trivial, j.filter.legible_toJson hj.1, below hj.2, trivial⟩

end Join

namespace Condition

/-- The condition with the empty filters of its joins replaced by the default filter. -/
def settle (c : Condition) : Condition :=
  { c with joins := Join.settleAll c.joins }

def values (c : Condition) : List Value :=
  c.filter.values ++ Join.valuesOf c.joins

/-- The joins are as the operations on joins make them: keys stand for one join each, and
siblings are in order. -/
structure Tidy (c : Condition) : Prop where
  plain : Join.Plain c.joins
  ordered : Join.Ordered c.joins

section Entries

variable (c : Condition)

def filterEntry : Entry Condition :=
  ⟨"filter", c.filter.toJson, fun d => { d with filter := c.filter }⟩

def joinsEntry : Entry Condition :=
  ⟨"joins", .array (Join.toItems c.joins), fun d => { d with joins := Join.settleAll c.joins }⟩

def distinctEntry : Entry Condition :=
  ⟨"distinct", .bool c.distinct, fun d => { d with distinct := c.distinct }⟩

def suppressFetchEntry : Entry Condition :=
  ⟨"suppress_fetch", .bool c.suppressFetch, fun d => { d with suppressFetch := c.suppressFetch }⟩

def allEntries : List (Entry Condition) :=
  [c.filterEntry, c.joinsEntry, c.distinctEntry, c.suppressFetchEntry]

def entries : List (Entry Condition) :=
  [c.filterEntry] ++ (if c.joins.isEmpty then [] else [c.joinsEntry]) ++
    [c.distinctEntry, c.suppressFetchEntry]

theorem toJson_eq : c.toJson = .ofFields (c.entries.map Entry.field) := by
  rw [toJson, entries]
  cases c.joins.isEmpty <;> rfl

theorem entries_sublist : c.entries.Sublist c.allEntries := by
  rw [entries, allEntries]
  cases c.joins.isEmpty <;> simp

theorem foldl_entries : c.entries.foldl (fun d e => e.change d) ({} : Condition) = c.settle := by
  have hjoins : c.joins.isEmpty = true → Join.settleAll c.joins = [] := by
    intro h
    rw [List.isEmpty_iff.mp h, Join.settleAll]
  rw [entries, settle]
  cases hc : c.joins.isEmpty
  all_goals
    simp [filterEntry, joinsEntry, distinctEntry, suppressFetchEntry, hjoins, hc]

theorem keys_allEntries :
    c.allEntries.map Entry.key = ["filter", "joins", "distinct", "suppress_fetch"] :=
  rfl

end Entries

variable {c : Condition}

theorem reads_toJson (h : c.Tidy) (hvalues : ∀ v ∈ c.values, v.Readable) :
    Reads JoinIdentity reader c.toJson c.settle := by
  rw [values, List.forall_mem_append] at hvalues
  have hfilter : Reads JoinIdentity Filter.reader c.filter.toJson c.filter :=
    c.filter.reads_toJson hvalues.1
  have hjoins := Join.reads_siblings h.ordered (Join.reads_toJson h.plain h.ordered hvalues.2)
  have hread : ∀ e ∈ c.allEntries, e.ReadBy JoinIdentity fieldNames readField := by
    rw [allEntries]
    simp only [List.forall_mem_cons, List.not_mem_nil, false_implies, implies_true, and_true]
    refine ⟨?_, ?_, ?_, ?_⟩
    · exact Entry.readBy_mk 0 (by decide) (hfilter.map _)
    · exact Entry.readBy_mk 1 (by decide) (hjoins.map _)
    · exact Entry.readBy_mk 2 (by decide) ((Reader.reads_bool c.distinct).map _)
    · exact Entry.readBy_mk 3 (by decide) ((Reader.reads_bool c.suppressFetch).map _)
  rw [toJson_eq, ← foldl_entries]
  refine Reader.reads_record c.entries_sublist hread (by rw [keys_allEntries]; decide) ?_ {}
  simp [allEntries, filterEntry, joinsEntry, distinctEntry, suppressFetchEntry]

theorem legible_toJson (h : c.Tidy) (hvalues : ∀ v ∈ c.values, v.Readable) :
    c.toJson.Legible := by
  rw [values, List.forall_mem_append] at hvalues
  rw [toJson_eq]
  refine Reader.legible_record c.entries_sublist (by rw [keys_allEntries]; decide) ?_
  rw [allEntries]
  simp only [List.forall_mem_cons, List.not_mem_nil, false_implies, implies_true, and_true]
  exact ⟨c.filter.legible_toJson hvalues.1, Join.legible_toJson h.plain hvalues.2, trivial, trivial⟩

end Condition

end Criteria
