import Criteria.Join.Codec
import Criteria.Proofs.Join.Union
import Criteria.Proofs.Json.Record

/-!
# Joins that are read

A path stands for a chain of joins, and a listing for the chain along its key with a filter
on the first join and with further children below it. Both give joins whose children are in
order, and so do the readers, which insert one join after the other.

## Main definitions

- `Join.segmentIdentities`: the identities of the joins along segments
- `Join.chainEntry`: the entries of a chain with a filter on its first join

## Main statements

- `Join.entryAt_chain`: the entries of a chain
- `Join.isUnion_ofListing`: a listing is the union of its chain and of what it lists
- `Join.exists_listing_of_read`: a join that is read comes from a listing in order
- `Join.insertion_is_union`: insertion, lists and listings as unions of entries
-/

namespace Criteria.Join

/-- The identities of the joins of one kind along segments. -/
def segmentIdentities (kind : JoinKind) (segments : List String) : List JoinIdentity :=
  segments.map fun segment => ⟨Text.trim segment, kind⟩

/-- The entries of a chain along identities: one for each of its beginnings, and a filter on
the first only. -/
def chainEntry (filter : Filter) (fetch : Bool) (identities path : List JoinIdentity) :
    Option (Filter × Bool) :=
  if path ≠ [] ∧ path <+: identities then
    some (if path.length = 1 then filter else {}, fetch)
  else none

theorem insertAll_eq_foldl (joins S : List Join) : insertAll joins S = joins.foldl insert S := by
  induction joins generalizing S with
  | nil => rw [insertAll, List.foldl_nil]
  | cons j rest ih => rw [insertAll, List.foldl_cons, ih, insert]

theorem ordered_chain (kind : JoinKind) (fetch : Bool) (first : String) (rest : List String) :
    Ordered (chain kind fetch first rest).children := by
  induction rest generalizing first with
  | nil => exact .nil
  | cons second rest ih => exact ordered_singleton (ih second)

/-- A path from a single join starts with its identity. -/
theorem entryAt_singleton (j : Join) (identity : JoinIdentity) (path : List JoinIdentity) :
    entryAt [j] (identity :: path) =
      if j.identity = identity then
        if path = [] then some (j.filter, j.fetch) else entryAt j.children path
      else none := by
  by_cases heq : j.identity = identity
  · subst heq
    have hget : get? [j] j.identity = some j := get?_cons_self j []
    by_cases hpath : path = []
    · subst hpath
      rw [if_pos rfl, if_pos rfl, entryAt, hget, Option.map_some]
    · rw [entryAt_below hget hpath, if_pos rfl, if_neg hpath]
  · rw [entryAt_singleton_of_ne heq, if_neg heq]

theorem chainEntry_nil (filter : Filter) (fetch : Bool) (path : List JoinIdentity) :
    chainEntry filter fetch [] path = none := by
  simp [chainEntry]

theorem chainEntry_cons (filter : Filter) (fetch : Bool) (first identity : JoinIdentity)
    (identities path : List JoinIdentity) :
    chainEntry filter fetch (first :: identities) (identity :: path) =
      if first = identity then
        if path = [] then some (filter, fetch) else chainEntry {} fetch identities path
      else none := by
  unfold chainEntry
  by_cases heq : first = identity
  · subst heq
    by_cases hpath : path = []
    · simp [hpath]
    · have hlength : path.length ≠ 0 := fun h => hpath (List.length_eq_zero_iff.mp h)
      simp [hpath, List.cons_prefix_cons, hlength]
  · simp [heq, List.cons_prefix_cons, Ne.symm heq]

/-- The entries of a chain. The induction is on the segments, each of which is one join. -/
theorem entryAt_chain (filter : Filter) (kind : JoinKind) (fetch : Bool) (first : String)
    (rest : List String) (path : List JoinIdentity) :
    entryAt [{ chain kind fetch first rest with filter }] path =
      chainEntry filter fetch (segmentIdentities kind (first :: rest)) path := by
  induction rest generalizing filter first path with
  | nil =>
    cases path with
    | nil => rfl
    | cons identity path =>
      rw [entryAt_singleton, segmentIdentities, List.map_cons, chainEntry_cons, List.map_nil,
        chainEntry_nil]
      have hbelow : entryAt (chain kind fetch first []).children path = none := entryAt_nil path
      rw [hbelow]
      rfl
  | cons second rest ih =>
    cases path with
    | nil => rfl
    | cons identity path =>
      rw [entryAt_singleton, segmentIdentities, List.map_cons, chainEntry_cons,
        ← segmentIdentities, ← ih]
      cases rest <;> rfl

/-- Children that are given to a join stand below it; its own entry stays. -/
theorem isUnion_children (j : Join) {children added : List Join}
    (h : IsUnion children j.children added) :
    IsUnion [{ j with children }] [j] [{ j with children := added }] := by
  intro path
  cases path with
  | nil => rfl
  | cons identity path =>
    rw [entryAt_singleton, entryAt_singleton, entryAt_singleton]
    have hidentity (below : List Join) : { j with children := below }.identity = j.identity := rfl
    rw [hidentity, hidentity]
    by_cases heq : j.identity = identity
    · by_cases hpath : path = []
      · simp [heq, hpath]
      · simpa [heq, hpath] using h path
    · simp [heq]

theorem exists_chain_of_ofPath {path : String} {kind : JoinKind} {fetch : Bool} {j : Join}
    (h : ofPath path kind fetch = .ok j) :
    ∃ first rest, Path.segments path = .ok (first :: rest) ∧ j = chain kind fetch first rest := by
  unfold ofPath at h
  cases hsegments : Path.segments path with
  | error e =>
    rw [hsegments] at h
    cases h
  | ok segments =>
    rw [hsegments] at h
    cases segments with
    | nil => cases h
    | cons first rest =>
      cases h
      exact ⟨first, rest, rfl, rfl⟩

/-- A listing stands for the union of the chain along its key, where the filter is on the
first join, and of its children below that join. -/
theorem isUnion_ofListing {listing : Listing} {key : String} {j : Join}
    (h : ofListing listing key = .ok j) (hchildren : Ordered listing.children) :
    Ordered j.children ∧ ∃ first rest, Path.segments key = .ok (first :: rest) ∧
      ∀ path, entryAt [j] path =
        (chainEntry listing.filter listing.fetch
            (segmentIdentities listing.kind (first :: rest)) path).or
          (entryAt [⟨Text.trim first, listing.kind, listing.filter, listing.children,
            listing.fetch⟩] path) := by
  unfold ofListing at h
  cases hpath : ofPath key listing.kind listing.fetch with
  | error e =>
    rw [hpath] at h
    cases h
  | ok top =>
    rw [hpath] at h
    cases h
    obtain ⟨first, rest, hsegments, rfl⟩ := exists_chain_of_ofPath hpath
    have hchain : Ordered (chain listing.kind listing.fetch first rest).children :=
      ordered_chain listing.kind listing.fetch first rest
    refine ⟨ordered_insertAll hchildren hchain, first, rest, hsegments, fun path => ?_⟩
    have hunion := isUnion_children
      { chain listing.kind listing.fetch first rest with filter := listing.filter }
      (isUnion_insertAll hchildren hchain) path
    rw [entryAt_chain] at hunion
    refine hunion.trans (congrArg _ ?_)
    cases rest <;> rfl

/-- The reader of listings: a record whose children are read as a list of siblings. -/
def listingReader : Reader JoinIdentity Listing :=
  Reader.record fieldNames (readField listReader) {}

theorem outcome_mergeList (joins : List Join) : (mergeList joins).outcome = .ok (ofList joins) :=
  rfl

theorem outcome_listReader (depth : Nat) (tree : Tree) :
    (listReader depth tree).outcome = (Reader.list reader depth tree).outcome.map ofList := by
  rw [listReader, Logged.outcome_bind]
  rfl

theorem readField_congr {children children' : Reader JoinIdentity (List Join)} {depth : Nat}
    {tree : Tree} (h : children depth tree = children' depth tree) (i : Nat) :
    readField children i depth tree = readField children' i depth tree := by
  unfold readField
  split
  case h_4 => rw [h]
  all_goals rfl

/-- A join is read as a listing, at every depth. -/
theorem read_eq (depth : Nat) (tree : Tree) :
    read depth tree = (do
      let listing ← listingReader depth tree
      let key ← Reader.require "key" listing.key
      match ofListing listing key with
      | .ok j => do
        Logged.note (mergedInListing listing key)
        return j
      | .error e => .fail (.refused e.display)) := by
  cases depth with
  | zero =>
    -- neither side gets as far as a listing
    obtain ⟨e, he⟩ := Reader.exists_record_zero_eq_fail fieldNames
      (readField listReader) ({} : Listing) tree
    have hcongr : Reader.record fieldNames (fun _ _ _ => .fail .tooDeep) ({} : Listing) 0 tree =
        Logged.fail (ω := JoinIdentity) e := by
      rw [← he]
      exact Reader.record_congr fun inner hinner => absurd hinner (Nat.succ_ne_zero inner)
    rw [read, listingReader, he, hcongr]
    rfl
  | succ depth =>
    rw [read, listingReader]
    congr 1
    refine Reader.record_congr fun inner hinner i part => ?_
    obtain rfl : inner = depth := by omega
    -- the fields are read one level further in, where both readers of children agree
    refine readField_congr ?_ i
    cases inner with
    | zero =>
      have hlist : Reader.list (fun _ _ => .fail .tooDeep) 0 part = Reader.list reader 0 part :=
        Reader.list_congr fun below hbelow => absurd hbelow (Nat.succ_ne_zero below)
      rw [listReader, ← hlist]
    | succ inner =>
      have hlist : Reader.list (fun _ part => read inner part) (inner + 1) part =
          Reader.list reader (inner + 1) part := by
        refine Reader.list_congr fun below hbelow part => ?_
        obtain rfl : below = inner := by omega
        rfl
      rw [listReader, ← hlist]

/-- Joins read as a list are in order if the children of each of them are. -/
theorem ordered_of_listReader {depth : Nat} {tree : Tree} {siblings : List Join}
    (hread : ∀ inner, inner + 1 = depth → ∀ {part j}, (read inner part).outcome = .ok j →
      Ordered j.children)
    (h : (listReader depth tree).outcome = .ok siblings) : Ordered siblings := by
  obtain ⟨joins, hjoins, h⟩ := Logged.exists_of_outcome_bind_eq_ok h
  rw [outcome_mergeList] at h
  cases h
  refine ordered_insertAll_of_forall (fun j hj => ?_) .nil
  obtain ⟨inner, hinner, part, hpart⟩ := Reader.exists_of_mem_list hjoins hj
  exact hread inner hinner hpart

theorem ordered_readField {children : Reader JoinIdentity (List Join)} {i depth : Nat}
    {tree : Tree} (hchildren : ∀ {joins}, (children depth tree).outcome = .ok joins → Ordered joins)
    {change : Listing → Listing} (h : (readField children i depth tree).outcome = .ok change)
    {draft : Listing} (hdraft : Ordered draft.children) : Ordered (change draft).children := by
  unfold readField at h
  split at h <;> obtain ⟨value, hvalue, h⟩ := Logged.exists_of_outcome_bind_eq_ok h <;> cases h
  case h_4 => exact hchildren hvalue
  all_goals exact hdraft

/-- A join that is read is that of its listing. -/
theorem exists_listing_of_read {depth : Nat} {tree : Tree} {j : Join}
    (h : (read depth tree).outcome = .ok j) :
    ∃ listing key, (listingReader depth tree).outcome = .ok listing ∧
      listing.key = some key ∧ ofListing listing key = .ok j := by
  rw [read_eq] at h
  obtain ⟨listing, hlisting, h⟩ := Logged.exists_of_outcome_bind_eq_ok h
  obtain ⟨key, hkey, h⟩ := Logged.exists_of_outcome_bind_eq_ok h
  have hkey' : listing.key = some key := by
    cases hlisted : listing.key with
    | none =>
      rw [hlisted] at hkey
      cases hkey
    | some _ =>
      rw [hlisted] at hkey
      cases hkey
      rfl
  split at h
  · rename_i top htop
    cases h
    exact ⟨listing, key, hlisting, hkey', htop⟩
  · cases h

/-- Whatever is read is in order. The readers of joins and of their children take turns, each
one level further in, so the induction is on the depth that is left. -/
theorem ordered_of_listingReader {depth : Nat} {tree : Tree} {listing : Listing}
    (h : (listingReader depth tree).outcome = .ok listing) : Ordered listing.children := by
  induction depth using Nat.strongRecOn generalizing tree listing with
  | ind depth ih =>
    refine Reader.record_invariant (P := fun l : Listing => Ordered l.children)
      (fun {i inner part change} hinner hchange _ hdraft => ?_) .nil h
    refine ordered_readField (fun hjoins => ?_) hchange hdraft
    refine ordered_of_listReader (fun below hbelow _ _ hread => ?_) hjoins
    -- a child is read two levels further in, as a listing of its own
    obtain ⟨listed, key, hlisted, _, htop⟩ := exists_listing_of_read hread
    exact (isUnion_ofListing htop (ih below (by omega) hlisted)).1

theorem ordered_of_read {depth : Nat} {tree : Tree} {j : Join}
    (h : (read depth tree).outcome = .ok j) : Ordered j.children := by
  obtain ⟨listing, key, hlisting, _, htop⟩ := exists_listing_of_read h
  exact (isUnion_ofListing htop (ordered_of_listingReader hlisting)).1

/-- Insertion is the union of join trees in which what is there already survives.

1. One join: the entries are united, siblings stay in order at every depth, the join that is
   given back is found at the identity, and a second insertion changes nothing.
2. Siblings: insertion of all of them is idempotent and associative.
3. A list, which need not be in order: it is inserted from left to right, the first join with
   an entry gives it, and another order of the list leads to the same paths.
4. Reading: siblings are read by inserting what their list holds. A join is read as a listing
   and is the union of the chain along its key, with the filter on the first join, and of the
   listed children below that join. -/
theorem insertion_is_union {S : List Join} {s : Join} (hS : Ordered S)
    (hs : Ordered s.children) :
    (IsUnion (insert S s) S [s] ∧ Ordered (insert S s) ∧ ((insert S s).map identity).Nodup ∧
      get? (insert S s) s.identity = some (survivor S s) ∧
      insert (insert S s) s = insert S s) ∧
    (∀ {T U}, Ordered T → Ordered U →
      IsUnion (insertAll T S) S T ∧ insertAll T (insertAll T S) = insertAll T S ∧
      insertAll U (insertAll T S) = insertAll (insertAll U T) S) ∧
    (∀ {joins}, (∀ j ∈ joins, Ordered j.children) →
      insertAll joins S = joins.foldl insert S ∧ Ordered (insertAll joins S) ∧
      (∀ path, entryAt (insertAll joins S) path =
        (entryAt S path).or (joins.findSome? fun j => entryAt [j] path)) ∧
      ∀ {joins'}, joins.Perm joins' → ∀ path,
        (entryAt (insertAll joins S) path).isSome =
          (entryAt (insertAll joins' S) path).isSome) ∧
    (∀ depth tree,
      (listReader depth tree).outcome = (Reader.list reader depth tree).outcome.map ofList ∧
      ∀ {joins}, (Reader.list reader depth tree).outcome = .ok joins →
        ∀ j ∈ joins, Ordered j.children) ∧
    ∀ {depth tree j}, (reader depth tree).outcome = .ok j →
      ∃ listing key first rest, (listingReader depth tree).outcome = .ok listing ∧
        listing.key = some key ∧ Path.segments key = .ok (first :: rest) ∧
        Ordered listing.children ∧ Ordered j.children ∧
        ∀ path, entryAt [j] path =
          (chainEntry listing.filter listing.fetch
              (segmentIdentities listing.kind (first :: rest)) path).or
            (entryAt [⟨Text.trim first, listing.kind, listing.filter, listing.children,
              listing.fetch⟩] path) := by
  have hinsert : Ordered (insert S s) := ordered_insert hS hs
  refine ⟨⟨isUnion_insert hS hs, hinsert, hinsert.nodup, ?_, insert_insert_self hS hs⟩, ?_, ?_,
    ?_, ?_⟩
  · rw [get?_insert hS, if_pos rfl]
  · intro T U hT hU
    refine ⟨isUnion_insertAll hT hS, ?_, insertAll_assoc hS hT hU⟩
    rw [insertAll_assoc hS hT hT, insertAll_self hT]
  · intro joins hjoins
    exact ⟨insertAll_eq_foldl joins S, ordered_insertAll_of_forall hjoins hS,
      entryAt_insertAll hjoins hS, fun hperm => isSome_entryAt_insertAll_perm hjoins hperm hS⟩
  · intro depth tree
    refine ⟨outcome_listReader depth tree, fun hjoins j hj => ?_⟩
    obtain ⟨_, _, _, hread⟩ := Reader.exists_of_mem_list hjoins hj
    exact ordered_of_read hread
  · intro depth tree j hread
    obtain ⟨listing, key, hlisting, hkey, htop⟩ := exists_listing_of_read hread
    have hchildren : Ordered listing.children := ordered_of_listingReader hlisting
    obtain ⟨hj, first, rest, hsegments, hentries⟩ := isUnion_ofListing htop hchildren
    exact ⟨listing, key, first, rest, hlisting, hkey, hsegments, hchildren, hj, hentries⟩

/-- The author of a post, who belongs to a team. -/
def authorWithTeam : Join :=
  { key := "author", kind := .left, children := [{ key := "team", kind := .left }] }

/-- The author of a post, whose country is not to be loaded. -/
def authorWithCountry : Join :=
  { key := "author", kind := .left, fetch := false,
    children := [{ key := "country", kind := .inner, fetch := false }] }

theorem insertion_is_union_author :
    IsUnion (insert [authorWithTeam] authorWithCountry) [authorWithTeam] [authorWithCountry] ∧
      entryAt (insert [authorWithTeam] authorWithCountry) [⟨"author", .left⟩] =
        some ({}, true) ∧
      entryAt (insert [authorWithTeam] authorWithCountry)
        [⟨"author", .left⟩, ⟨"country", .inner⟩] = some ({}, false) := by
  have hthere : Ordered [authorWithTeam] := ordered_singleton (ordered_singleton .nil)
  have hnew : Ordered authorWithCountry.children := ordered_singleton .nil
  obtain ⟨⟨hunion, _⟩, _⟩ := insertion_is_union hthere hnew
  refine ⟨hunion, ?_, ?_⟩
  · rw [hunion]
    rfl
  · rw [hunion]
    rfl

end Criteria.Join
