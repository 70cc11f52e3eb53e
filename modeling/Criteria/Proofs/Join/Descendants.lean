import Mathlib.Data.List.Nodup
import Criteria.Condition
import Criteria.Proofs.Join.Keys
import Criteria.Proofs.Join.Reading

/-!
# Descendants of joins

Keys lead from a join down to its descendants. Siblings may share a key if their kinds differ,
and a dotted path goes to the one with the earliest kind. So a descendant is hidden where a join
on the way to it has a sibling with its key and an earlier kind, and it is reached where none
of them has.

## Main definitions

- `Join.Descends`: a way down along keys, with a choice among the children at each of them
- `Join.IsForemost`: no sibling with the key of a join has an earlier kind

## Main statements

- `Join.descendant?_eq_some_iff`: a dotted path leads to the foremost child at each key
- `Join.isSome_follow?_concat_iff`: the last join on the way may be hidden itself
- `Join.descends_survivor`: a chain that has been inserted is there
- `Condition.descendant?_added`: which of the joins that have been added are reached
-/

namespace Criteria

theorem JoinIdentity.Before.rank_lt {a b : JoinIdentity} (h : a.Before b)
    (hkey : a.key = b.key) : a.kind.rank < b.kind.rank := by
  have hkeys : compareOn JoinIdentity.key a b = .eq := by
    rw [compareOn, hkey]
    exact Std.ReflCmp.compare_self
  rw [Before, cmp, compareLex, hkeys] at h
  exact Nat.compare_eq_lt.mp h

namespace Join

/-- Keys lead from a join down to a descendant, each of them to a child with that key which is
chosen among its siblings. -/
inductive Descends (Choice : List Join → Join → Prop) : List String → Join → Join → Prop
  | here {j : Join} : Descends Choice [] j j
  | down {j child last : Join} {keys : List String} (mem : child ∈ j.children)
      (choice : Choice j.children child) (rest : Descends Choice keys child last) :
      Descends Choice (child.key :: keys) j last

/-- No sibling with the key of a join has an earlier kind. -/
def IsForemost (siblings : List Join) (j : Join) : Prop :=
  ∀ k ∈ siblings, k.key = j.key → j.kind.rank ≤ k.kind.rank

section Descends

variable {Choice Choice' : List Join → Join → Prop} {j last : Join} {keys : List String}

theorem Descends.mono (h : Descends Choice keys j last)
    (himp : ∀ S child, Choice S child → Choice' S child) : Descends Choice' keys j last := by
  induction h with
  | here => exact .here
  | down mem choice _ ih => exact .down mem (himp _ _ choice) ih

theorem descends_nil_iff : Descends Choice [] j last ↔ j = last := by
  constructor
  · rintro ⟨⟩
    rfl
  · rintro rfl
    exact .here

theorem descends_cons_iff {key : String} :
    Descends Choice (key :: keys) j last ↔
      ∃ child ∈ j.children, child.key = key ∧ Choice j.children child ∧
        Descends Choice keys child last := by
  constructor
  · rintro ⟨⟩
    rename_i child mem choice rest
    exact ⟨child, mem, rfl, choice, rest⟩
  · rintro ⟨child, mem, rfl, choice, rest⟩
    exact .down mem choice rest

theorem descends_append_iff {more : List String} :
    Descends Choice (keys ++ more) j last ↔
      ∃ middle, Descends Choice keys j middle ∧ Descends Choice more middle last := by
  induction keys generalizing j with
  | nil => simp [descends_nil_iff]
  | cons key keys ih =>
    rw [List.cons_append, descends_cons_iff]
    constructor
    · rintro ⟨child, hmem, hkey, hchoice, hrest⟩
      obtain ⟨middle, hmiddle, hlast⟩ := ih.mp hrest
      exact ⟨middle, descends_cons_iff.mpr ⟨child, hmem, hkey, hchoice, hmiddle⟩, hlast⟩
    · rintro ⟨middle, hmiddle, hlast⟩
      obtain ⟨child, hmem, hkey, hchoice, hrest⟩ := descends_cons_iff.mp hmiddle
      exact ⟨child, hmem, hkey, hchoice, ih.mpr ⟨middle, hrest, hlast⟩⟩

theorem Descends.ordered (h : Descends Choice keys j last) (hj : Ordered j.children) :
    Ordered last.children := by
  induction h with
  | here => exact hj
  | down mem _ _ ih => exact ih (hj.children_of_mem mem)

/-- Where the choice leaves one child at most for each key, the way down is determined. -/
theorem Descends.unique (hchoice : ∀ {S}, Ordered S → ∀ {a b}, a ∈ S → b ∈ S → a.key = b.key →
      Choice S a → Choice S b → a = b)
    {other : Join} (h : Descends Choice keys j last) (hother : Descends Choice keys j other)
    (hj : Ordered j.children) : last = other := by
  induction h with
  | here => exact descends_nil_iff.mp hother
  | down mem choice _ ih =>
    obtain ⟨child, hmem, hkey, hchosen, hrest⟩ := descends_cons_iff.mp hother
    obtain rfl := hchoice hj hmem mem hkey hchosen choice
    exact ih hrest (hj.children_of_mem hmem)

end Descends

/-- An identity leads to one join at most. -/
theorem Ordered.eq_of_identity_eq {S : List Join} (h : Ordered S) {a b : Join} (ha : a ∈ S)
    (hb : b ∈ S) (heq : a.identity = b.identity) : a = b :=
  List.inj_on_of_nodup_map h.nodup ha hb heq

theorem Ordered.eq_of_kind_eq {S : List Join} (h : Ordered S) {a b : Join} (ha : a ∈ S)
    (hb : b ∈ S) (hkey : a.key = b.key) (hkind : a.kind = b.kind) : a = b :=
  h.eq_of_identity_eq ha hb (by rw [identity, identity, hkey, hkind])

/-- The first of the ordered siblings with a key is the one with the earliest kind. -/
theorem Ordered.isForemost_of_findKey? {S : List Join} (h : Ordered S) {key : String} {j : Join}
    (hfind : findKey? S key = some j) : IsForemost S j := by
  obtain ⟨hkey, before, after, rfl, hbefore⟩ := List.find?_eq_some_iff_append.mp hfind
  simp only [decide_eq_true_eq, Bool.not_eq_eq_eq_not, Bool.not_true, decide_eq_false_iff_not]
    at hkey hbefore
  intro k hk hkeys
  rcases List.mem_append.mp hk with hk | hk
  · exact absurd (hkeys.trans hkey) (hbefore k hk)
  · rcases List.mem_cons.mp hk with rfl | hk
    · exact le_rfl
    · have hpairs := (List.pairwise_append.mp h.pairwise).2.1
      have hjk : j.identity.Before k.identity := (List.pairwise_cons.mp hpairs).1 k hk
      exact (hjk.rank_lt hkeys.symm).le

theorem Ordered.eq_of_isForemost {S : List Join} (h : Ordered S) {a b : Join} (ha : a ∈ S)
    (hb : b ∈ S) (hkey : a.key = b.key) (hfirst : IsForemost S a) (hsecond : IsForemost S b) :
    a = b := by
  have hrank : a.kind.rank = b.kind.rank :=
    le_antisymm (hfirst b hb hkey.symm) (hsecond a ha hkey)
  exact h.eq_of_kind_eq ha hb hkey (JoinKind.eq_of_rank_eq hrank)

theorem Ordered.findKey?_eq_some_iff {S : List Join} (h : Ordered S) {key : String} {j : Join} :
    findKey? S key = some j ↔ j ∈ S ∧ j.key = key ∧ IsForemost S j := by
  constructor
  · intro hfind
    refine ⟨List.mem_of_find?_eq_some hfind, ?_, h.isForemost_of_findKey? hfind⟩
    simpa using List.find?_some hfind
  · rintro ⟨hmem, rfl, hforemost⟩
    have hsome : (findKey? S j.key).isSome := List.find?_isSome.mpr ⟨j, hmem, by simp⟩
    obtain ⟨first, hfirst⟩ := Option.isSome_iff_exists.mp hsome
    have hkey : first.key = j.key := by simpa using List.find?_some hfirst
    rw [hfirst, h.eq_of_isForemost (List.mem_of_find?_eq_some hfirst) hmem hkey
      (h.isForemost_of_findKey? hfirst) hforemost]

theorem follow?_eq_some_iff {keys : List String} {j last : Join} (hj : Ordered j.children) :
    follow? keys j = some last ↔ Descends IsForemost keys j last := by
  induction keys generalizing j with
  | nil => rw [follow?, descends_nil_iff, Option.some_inj]
  | cons key keys ih =>
    rw [follow?, Option.bind_eq_some_iff, descends_cons_iff]
    constructor
    · rintro ⟨child, hfind, hrest⟩
      obtain ⟨hmem, hkey, hforemost⟩ := hj.findKey?_eq_some_iff.mp hfind
      exact ⟨child, hmem, hkey, hforemost, (ih (hj.children_of_mem hmem)).mp hrest⟩
    · rintro ⟨child, hmem, hkey, hforemost, hrest⟩
      exact ⟨child, hj.findKey?_eq_some_iff.mpr ⟨hmem, hkey, hforemost⟩,
        (ih (hj.children_of_mem hmem)).mpr hrest⟩

theorem follow?_append (keys more : List String) (j : Join) :
    follow? (keys ++ more) j = (follow? keys j).bind (follow? more) := by
  induction keys generalizing j with
  | nil => rfl
  | cons key keys ih =>
    rw [List.cons_append, follow?, follow?, Option.bind_assoc]
    exact congrArg _ (funext ih)

/-- A dotted path leads to the descendant at the end of the foremost children with its keys. -/
theorem descendant?_eq_some_iff {j last : Join} (hj : Ordered j.children) (path : String) :
    j.descendant? path = some last ↔ Descends IsForemost (Path.parts path) j last :=
  follow?_eq_some_iff hj

/-- Keys lead somewhere if all of them but the last lead to foremost children and there is a
child with the last of them. -/
theorem isSome_follow?_concat_iff {keys : List String} {key : String} {j : Join}
    (hj : Ordered j.children) :
    (follow? (keys ++ [key]) j).isSome ↔
      ∃ middle, Descends IsForemost keys j middle ∧ ∃ child ∈ middle.children, child.key = key := by
  rw [follow?_append, Option.isSome_iff_exists]
  constructor
  · rintro ⟨last, hlast⟩
    obtain ⟨middle, hmiddle, hlast⟩ := Option.bind_eq_some_iff.mp hlast
    have hway := (follow?_eq_some_iff hj).mp hmiddle
    obtain ⟨child, hmem, hkey, -⟩ :=
      descends_cons_iff.mp ((follow?_eq_some_iff (hway.ordered hj)).mp hlast)
    exact ⟨middle, hway, child, hmem, hkey⟩
  · rintro ⟨middle, hway, child, hmem, rfl⟩
    have hsome : (findKey? middle.children child.key).isSome :=
      List.find?_isSome.mpr ⟨child, hmem, by simp⟩
    obtain ⟨first, hfirst⟩ := Option.isSome_iff_exists.mp hsome
    refine ⟨first, Option.bind_eq_some_iff.mpr ⟨middle, (follow?_eq_some_iff hj).mpr hway, ?_⟩⟩
    rw [follow?, hfirst]
    rfl

/-- Where siblings have an entry along segments of one kind, the first of the joins leads down to
the others. -/
theorem exists_descends_of_entryAt {kind : JoinKind} {first : String} {rest : List String}
    {S : List Join} (h : (entryAt S (segmentIdentities kind (first :: rest))).isSome) :
    ∃ top, get? S ⟨Text.trim first, kind⟩ = some top ∧
      ∃ last, Descends (fun _ child => child.kind = kind) (rest.map Text.trim) top last := by
  induction rest generalizing first S with
  | nil =>
    have hget : (get? S ⟨Text.trim first, kind⟩).isSome := by
      simpa [segmentIdentities, entryAt] using h
    obtain ⟨top, htop⟩ := Option.isSome_iff_exists.mp hget
    exact ⟨top, htop, top, .here⟩
  | cons second rest ih =>
    obtain ⟨entry, hentry⟩ := Option.isSome_iff_exists.mp h
    obtain ⟨top, htop, hbelow⟩ := Option.bind_eq_some_iff.mp hentry
    have hsome : (entryAt top.children (segmentIdentities kind (second :: rest))).isSome :=
      Option.isSome_iff_exists.mpr ⟨entry, hbelow⟩
    obtain ⟨child, hchild, last, hlast⟩ := ih hsome
    have hidentity : child.identity = ⟨Text.trim second, kind⟩ := by
      simpa using List.find?_some hchild
    obtain ⟨hkey, hkind⟩ := JoinIdentity.mk.inj hidentity
    exact ⟨top, htop, last,
      descends_cons_iff.mpr ⟨child, mem_of_get?_eq_some hchild, hkey, hkind, hlast⟩⟩

theorem identity_chain (kind : JoinKind) (fetch : Bool) (first : String) (rest : List String) :
    (chain kind fetch first rest).identity = ⟨Text.trim first, kind⟩ := by
  cases rest <;> rfl

/-- After a chain has been inserted, its joins are there: the join that is given back leads down
to all the others. -/
theorem descends_survivor {S : List Join} (hS : Ordered S) (kind : JoinKind) (fetch : Bool)
    (first : String) (rest : List String) :
    ∃ last, Descends (fun _ child => child.kind = kind) (rest.map Text.trim)
      (survivor S (chain kind fetch first rest)) last := by
  have hfilter : { chain kind fetch first rest with filter := {} } =
      chain kind fetch first rest := by
    cases rest <;> rfl
  have hchain := entryAt_chain {} kind fetch first rest (segmentIdentities kind (first :: rest))
  rw [hfilter, chainEntry, if_pos ⟨by simp [segmentIdentities], List.prefix_rfl⟩] at hchain
  have hentry : (entryAt (insert S (chain kind fetch first rest))
      (segmentIdentities kind (first :: rest))).isSome := by
    rw [isUnion_insert hS (ordered_chain kind fetch first rest), hchain]
    simp
  obtain ⟨top, htop, hway⟩ := exists_descends_of_entryAt hentry
  rw [get?_insert hS, identity_chain, if_pos rfl] at htop
  obtain rfl := Option.some_inj.mp htop
  exact hway

theorem ordered_survivor {S : List Join} (hS : Ordered S) {s : Join} (hs : Ordered s.children) :
    Ordered (survivor S s).children := by
  have hget := get?_insert hS s s.identity
  rw [if_pos rfl] at hget
  exact (ordered_insert hS hs).children_of_mem (mem_of_get?_eq_some hget)

/-- Every join of the first kind is foremost. -/
theorem isForemost_of_inner {S : List Join} {j : Join} (h : j.kind = .inner) : IsForemost S j := by
  intro k _ _
  rw [h]
  exact Nat.zero_le k.kind.rank

end Join

namespace Path

/-- Keys without dots are the parts of the path that they make. -/
theorem parts_join {keys : List String} (hne : keys ≠ []) (h : ∀ key ∈ keys, '.' ∉ key.toList) :
    parts (Text.join "." keys) = keys := by
  induction keys with
  | nil => exact absurd rfl hne
  | cons key rest ih =>
    have hkey : '.' ∉ key.toList := h key List.mem_cons_self
    cases rest with
    | nil =>
      have hjoin : Text.join "." [key] = key := String.ofList_toList
      rw [hjoin, parts_of_not_mem hkey]
    | cons next rest =>
      have hjoin : Text.join "." (key :: next :: rest) =
          key ++ "." ++ Text.join "." (next :: rest) := by
        rw [← String.toList_inj]
        simp [Text.join, Text.joinChars]
      rw [hjoin, parts_append, parts_of_not_mem hkey,
        ih (List.cons_ne_nil next rest) fun k hk => h k (List.mem_cons_of_mem key hk)]
      rfl

theorem not_mem_trim_of_segments {path : String} {names : List String}
    (h : segments path = .ok names) {key : String} (hkey : key ∈ names.map Text.trim) :
    '.' ∉ key.toList := by
  obtain ⟨name, hname, rfl⟩ := List.mem_map.mp hkey
  rw [(segments_eq_ok_iff.mp h).2] at hname
  rw [Text.trim, String.toList_ofList]
  exact fun hmem => not_mem_of_mem_parts hname (Text.mem_of_mem_trimChars hmem)

end Path

namespace Condition

open Join (Descends IsForemost)

theorem addPath_of_segments {path first : String} {rest : List String}
    (h : Path.segments path = .ok (first :: rest)) (c : Condition) (kind : JoinKind) :
    c.addPath path kind = .ok (c.addJoin (.chain kind true first rest)) := by
  rw [addPath, Join.ofPath, h]
  rfl

/-- Where a dotted path leads, and which of the joins that have been added it reaches.

1. A path leads from a join to the descendant at the end of the foremost children with its keys.
   It leads somewhere just if all of its keys but the last lead to foremost children, and there is
   a child with the last key.
2. A chain of two joins or more that is added to a condition is there: the join at the top leads
   down to the others. With their keys the path from the top leads to a descendant if the joins are
   inner ones, if there is one below the top only, or if none of those on the way has a sibling
   with its key and an earlier kind. -/
theorem descendant?_added :
    (∀ {j : Join}, Join.Ordered j.children → ∀ path,
      (∀ last, j.descendant? path = some last ↔
        Descends IsForemost (Path.parts path) j last) ∧
      ∀ {keys key}, Path.parts path = keys ++ [key] →
        ((j.descendant? path).isSome ↔
          ∃ middle, Descends IsForemost keys j middle ∧
            ∃ child ∈ middle.children, child.key = key)) ∧
    ∀ {c : Condition}, Join.Ordered c.joins →
      ∀ {path kind first second rest}, Path.segments path = .ok (first :: second :: rest) →
        ∃ c' top, c.addPath path kind = .ok c' ∧
          Join.get? c'.joins ⟨Text.trim first, kind⟩ = some top ∧ Join.Ordered top.children ∧
          (∃ last, Descends (fun _ child => child.kind = kind)
            ((second :: rest).map Text.trim) top last) ∧
          ((kind = .inner ∨ rest = [] ∨
              ∃ middle, Descends (fun S child => child.kind = kind ∧ IsForemost S child)
                ((second :: rest).map Text.trim).dropLast top middle) →
            ∃ last, top.descendant? (Text.join "." ((second :: rest).map Text.trim)) = some last ∧
              Descends (fun _ _ => True) ((second :: rest).map Text.trim) top last) := by
  refine ⟨fun hj path => ⟨fun last => Join.descendant?_eq_some_iff hj path, fun hparts => ?_⟩, ?_⟩
  · rw [Join.descendant?, hparts]
    exact Join.isSome_follow?_concat_iff hj
  · intro c hc path kind first second rest hsegments
    have hadd := addPath_of_segments hsegments c kind
    have hchain := Join.ordered_chain kind true first (second :: rest)
    have htop := Join.ordered_survivor hc hchain
    have hway := Join.descends_survivor hc kind true first (second :: rest)
    refine ⟨_, Join.survivor c.joins (.chain kind true first (second :: rest)), hadd, ?_, htop,
      hway, ?_⟩
    · rw [addJoin, Join.get?_insert hc, Join.identity_chain, if_pos rfl]
    · intro hvisible
      have hnames : (second :: rest).map Text.trim ≠ [] := List.cons_ne_nil _ _
      have hparts : Path.parts (Text.join "." ((second :: rest).map Text.trim)) =
          (second :: rest).map Text.trim :=
        Path.parts_join hnames fun key hkey =>
          Path.not_mem_trim_of_segments hsegments (List.mem_cons_of_mem _ hkey)
      have hsplit := List.dropLast_append_getLast hnames
      -- the way down to the last but one of the joins that have been added
      obtain ⟨last, hlast⟩ := hway
      rw [← hsplit] at hlast
      obtain ⟨middle, hmiddle, hlast⟩ := Join.descends_append_iff.mp hlast
      obtain ⟨child, hmem, hkey, -⟩ := Join.descends_cons_iff.mp hlast
      have hforemost : Descends IsForemost ((second :: rest).map Text.trim).dropLast
          (Join.survivor c.joins (.chain kind true first (second :: rest))) middle := by
        rcases hvisible with rfl | rfl | ⟨other, hother⟩
        · exact hmiddle.mono fun S child hkind => Join.isForemost_of_inner hkind
        · exact Join.descends_nil_iff.mpr (Join.descends_nil_iff.mp hmiddle)
        · have heq : middle = other :=
            hmiddle.unique (fun hS _ _ ha hb hkey hkind hkind' =>
              hS.eq_of_kind_eq ha hb hkey (hkind.trans hkind'.symm))
              (hother.mono fun _ _ hchoice => hchoice.1) htop
          rw [heq]
          exact hother.mono fun _ _ hchoice => hchoice.2
      have hsome := (Join.isSome_follow?_concat_iff htop).mpr ⟨middle, hforemost, child, hmem, hkey⟩
      rw [hsplit, ← hparts] at hsome
      obtain ⟨found, hfound⟩ := Option.isSome_iff_exists.mp hsome
      refine ⟨found, hfound, ?_⟩
      have hfoundWay := (Join.descendant?_eq_some_iff htop _).mp hfound
      rw [hparts] at hfoundWay
      exact hfoundWay.mono fun _ _ _ => trivial

/-- Posts with their comments, by a join of some kind. -/
def postWithComments (kind : JoinKind) : Condition where
  joins := [{ key := "post", kind := .left, children := [{ key := "comments", kind }] }]

/-- Left comments with their authors. -/
def commentsWithAuthors : Join :=
  { key := "comments", kind := .left, children := [{ key := "author", kind := .left }] }

theorem ordered_postWithComments (kind : JoinKind) : Join.Ordered (postWithComments kind).joins :=
  Join.ordered_singleton (Join.ordered_singleton .nil)

/-- The full comments come after the left ones, which lead to their authors. -/
theorem descendant?_added_authors :
    Join.Ordered (postWithComments .full).joins ∧
      Path.segments "post. comments .author" = .ok ["post", " comments ", "author"] ∧
      ∃ c' top last, (postWithComments .full).addPath "post. comments .author" .left = .ok c' ∧
        Join.get? c'.joins ⟨"post", .left⟩ = some top ∧
        top.children = [commentsWithAuthors, { key := "comments", kind := .full }] ∧
        top.descendant? "comments.author" = some last := by
  have hordered := ordered_postWithComments .full
  have hsegments : Path.segments "post. comments .author" =
      .ok ["post", " comments ", "author"] := by decide
  obtain ⟨-, hadded⟩ := descendant?_added
  obtain ⟨c', top, hadd, htop, -, -, hreached⟩ := @hadded _ hordered _ .left _ _ _ hsegments
  have hchildren : top.children = [commentsWithAuthors, { key := "comments", kind := .full }] := by
    rw [addPath_of_segments hsegments] at hadd
    obtain rfl := Except.ok.inj hadd
    obtain rfl := Option.some_inj.mp htop
    rfl
  have hforemost : IsForemost top.children commentsWithAuthors := by
    rw [hchildren]
    intro k hk _
    rcases List.mem_cons.mp hk with rfl | hk
    · exact le_rfl
    · obtain rfl := List.mem_singleton.mp hk
      decide
  have hmem : commentsWithAuthors ∈ top.children := hchildren ▸ List.mem_cons_self
  obtain ⟨last, hlast, -⟩ := hreached (.inr (.inr ⟨_, .down hmem ⟨rfl, hforemost⟩ .here⟩))
  exact ⟨hordered, hsegments, c', top, last, hadd, htop, hchildren, hlast⟩

/-- The inner comments, which lead nowhere, come before the left ones and hide their authors. -/
theorem descendant?_hidden :
    ∃ c' top last, Join.Ordered (postWithComments .inner).joins ∧
      (postWithComments .inner).addPath "post.comments.author" .left = .ok c' ∧
      Join.get? c'.joins ⟨"post", .left⟩ = some top ∧
      Descends (fun _ child => child.kind = .left) ["comments", "author"] top last ∧
      top.descendant? "comments.author" = none := by
  have hsegments : Path.segments "post.comments.author" = .ok ["post", "comments", "author"] := by
    decide
  have hparts : Path.parts "comments.author" = ["comments", "author"] := by decide
  refine ⟨_, _, { key := "author", kind := .left }, ordered_postWithComments .inner,
    addPath_of_segments hsegments _ .left, rfl, ?_, ?_⟩
  · refine Join.descends_cons_iff.mpr ⟨commentsWithAuthors, ?_, rfl, rfl, ?_⟩
    · exact List.mem_cons_of_mem _ List.mem_cons_self
    · exact Join.descends_cons_iff.mpr ⟨_, List.mem_cons_self, rfl, rfl, .here⟩
  · rw [Join.descendant?, hparts]
    rfl

end Condition

end Criteria
