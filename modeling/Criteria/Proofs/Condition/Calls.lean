import Criteria.Condition
import Criteria.Proofs.Join.Reading

/-!
# Calls that fail

Conditions and joins are built in place. A call that adds the joins along one path reads the path
before it changes anything, and so leaves everything as it was if it fails. A call with several
paths is one such call after the other: it ends with the first path that is refused, and the joins
along the paths before that one stay.

## Main definitions

- `BuilderCall`: work on something in place that may fail on its way
- `Condition.addPathCall`, `Condition.addPathsCall`, `Join.addChildPathCall`: the calls that add
  joins along paths

## Main statements

- `Condition.on_addPathCall_eq`, `Condition.on_addPathsCall_eq`, `Join.on_addChildPathCall_eq`: the
  calls as functions from a state to the next
- `Join.insert_eq_self_iff`: a chain of joins that is there already
- `Condition.failed_calls`: what calls leave behind that fail
-/

namespace Criteria

/-- Work on something in place that may fail. What has been changed before a failure stays
changed. -/
abbrev BuilderCall (σ α : Type) := ExceptT ConditionError (StateM σ) α

namespace BuilderCall

variable {σ α β : Type}

/-- The answer of a call, and what it leaves behind. -/
def on (call : BuilderCall σ α) (s : σ) : Except ConditionError α × σ :=
  (call.run s).run

/-- An answer without any work. -/
def ofExcept (x : Except ConditionError α) : BuilderCall σ α :=
  ExceptT.mk (pure x)

theorem on_ofExcept_bind (x : Except ConditionError α) (next : α → BuilderCall σ β) (s : σ) :
    (ofExcept x >>= next).on s =
      match x with
      | .ok a => (next a).on s
      | .error e => (.error e, s) := by
  cases x <;> rfl

theorem on_bind (call : BuilderCall σ α) (next : α → BuilderCall σ β) (s : σ) :
    (call >>= next).on s =
      match call.on s with
      | (.ok a, after) => (next a).on after
      | (.error e, after) => (.error e, after) := by
  show ExceptT.bindCont next (call.on s).1 (call.on s).2 = _
  rcases call.on s with ⟨e | a, after⟩ <;> rfl

end BuilderCall

namespace Condition

/-- Adds the chain of joins along a path, and answers with its top join. -/
def addPathCall (path : String) (kind : JoinKind) : BuilderCall Condition Join := do
  let j ← BuilderCall.ofExcept (Join.ofPath path kind true)
  let c ← get
  set (c.addJoin j)
  return Join.survivor c.joins j

/-- Adds the chains of joins along several paths, one after the other. -/
def addPathsCall : List String → BuilderCall Condition Unit
  | [] => pure ()
  | path :: rest => do
    let _ ← addPathCall path .left
    addPathsCall rest

end Condition

/-- Adds the chain of joins along a path below a join, and answers with the top join of it. -/
def Join.addChildPathCall (path : String) : BuilderCall Join Join := do
  let j ← get
  let child ← BuilderCall.ofExcept (ofPath path j.kind j.fetch)
  set (j.addChild child)
  return survivor j.children child

namespace Join

theorem on_addChildPathCall_eq (path : String) (j : Join) :
    (addChildPathCall path).on j =
      match ofPath path j.kind j.fetch with
      | .ok child => (.ok (survivor j.children child), j.addChild child)
      | .error e => (.error e, j) := by
  show (BuilderCall.ofExcept (ofPath path j.kind j.fetch) >>= _).on j = _
  rw [BuilderCall.on_ofExcept_bind]
  cases ofPath path j.kind j.fetch <;> rfl

/-- A chain of joins stands for a path exactly if no segment of the path is blank. -/
theorem ofPath_eq_error_iff {path : String} {kind : JoinKind} {fetch : Bool} {e : ConditionError} :
    ofPath path kind fetch = .error e ↔ Path.isValid path = false ∧ e = .emptySegment path := by
  unfold ofPath Path.segments
  cases hvalid : Path.isValid path with
  | false => simp [bind, Except.bind, eq_comm]
  | true =>
    rcases hparts : Path.parts path with - | ⟨first, rest⟩
    · exact absurd hparts (Path.parts_ne_nil path)
    · simp [bind, Except.bind, pure, Except.pure]

theorem on_addChildPathCall_eq_error_iff {path : String} {j after : Join} {e : ConditionError} :
    (addChildPathCall path).on j = (.error e, after) ↔
      Path.isValid path = false ∧ e = .emptySegment path ∧ after = j := by
  rw [on_addChildPathCall_eq]
  cases hpath : ofPath path j.kind j.fetch with
  | ok child =>
    refine iff_of_false nofun fun hfails => ?_
    rw [ofPath_eq_error_iff.mpr ⟨hfails.1, rfl⟩] at hpath
    cases hpath
  | error e' =>
    obtain ⟨hvalid, rfl⟩ := ofPath_eq_error_iff.mp hpath
    simp [hvalid, eq_comm]

theorem addChildPath_of_on_addChildPathCall {path : String} {j after top : Join}
    (h : (addChildPathCall path).on j = (.ok top, after)) : j.addChildPath path = .ok after := by
  rw [on_addChildPathCall_eq] at h
  unfold addChildPath
  cases hpath : ofPath path j.kind j.fetch with
  | error e =>
    rw [hpath] at h
    cases h
  | ok child =>
    rw [hpath] at h
    cases h
    rfl

theorem exists_ofPath_of_isValid {path : String} (h : Path.isValid path = true) (kind : JoinKind)
    (fetch : Bool) : ∃ j, ofPath path kind fetch = .ok j := by
  cases hpath : ofPath path kind fetch with
  | ok j => exact ⟨j, rfl⟩
  | error e =>
    rw [ofPath_eq_error_iff, h] at hpath
    cases hpath.1

/-- The identities of the joins along a path. -/
def pathIdentities (kind : JoinKind) (path : String) : List JoinIdentity :=
  segmentIdentities kind (Path.parts path)

/-- Joins of one kind lead from siblings along a path. -/
def HasPath (siblings : List Join) (kind : JoinKind) (path : String) : Prop :=
  (entryAt siblings (pathIdentities kind path)).isSome

instance (siblings : List Join) (kind : JoinKind) (path : String) :
    Decidable (HasPath siblings kind path) :=
  inferInstanceAs (Decidable (_ = true))

/-- Where a way down leads to a join, so do its beginnings. -/
theorem isSome_entryAt_of_beginning {path before : List JoinIdentity} (hne : before ≠ [])
    (hbeginning : before <+: path) {S : List Join} (h : (entryAt S path).isSome) :
    (entryAt S before).isSome := by
  induction before generalizing path S with
  | nil => exact absurd rfl hne
  | cons identity before ih =>
    obtain ⟨after, rfl⟩ := hbeginning
    rw [List.cons_append] at h
    cases hget : get? S identity with
    | none =>
      rw [entryAt_eq_none hget] at h
      cases h
    | some there =>
      by_cases hbefore : before = []
      · subst hbefore
        simp [entryAt, hget]
      · have happend : before ++ after ≠ [] := by simp [hbefore]
        rw [entryAt_below hget happend] at h
        rw [entryAt_below hget hbefore]
        exact ih hbefore (List.prefix_append before after) h

variable {S : List Join} {path : String} {kind : JoinKind} {fetch : Bool} {j : Join}

/-- What is read from a path has the joins along the path and their beginnings. -/
theorem entryAt_ofPath (h : ofPath path kind fetch = .ok j) (identities : List JoinIdentity) :
    entryAt [j] identities = chainEntry {} fetch (pathIdentities kind path) identities := by
  obtain ⟨first, rest, hsegments, rfl⟩ := exists_chain_of_ofPath h
  have hparts : first :: rest = Path.parts path := (Path.segments_eq_ok_iff.mp hsegments).2
  have hchain : { chain kind fetch first rest with filter := {} } =
      chain kind fetch first rest := by cases rest <;> rfl
  rw [pathIdentities, ← hparts, ← entryAt_chain, hchain]

theorem ordered_children_of_ofPath (h : ofPath path kind fetch = .ok j) : Ordered j.children := by
  obtain ⟨first, rest, -, rfl⟩ := exists_chain_of_ofPath h
  exact ordered_chain kind fetch first rest

theorem pathIdentities_ne_nil (kind : JoinKind) (path : String) :
    pathIdentities kind path ≠ [] := by
  rw [pathIdentities, segmentIdentities, ne_eq, List.map_eq_nil_iff]
  exact Path.parts_ne_nil path

theorem HasPath.insert {kind' : JoinKind} {path' : String} (h : HasPath S kind' path')
    (hS : Ordered S) (hj : Ordered j.children) : HasPath (insert S j) kind' path' := by
  rw [HasPath, isUnion_insert hS hj, Option.isSome_or, h, Bool.true_or]

theorem hasPath_insert (hS : Ordered S) (h : ofPath path kind fetch = .ok j) :
    HasPath (insert S j) kind path := by
  have hentry : (entryAt [j] (pathIdentities kind path)).isSome := by
    rw [entryAt_ofPath h, chainEntry, if_pos ⟨pathIdentities_ne_nil kind path, List.prefix_rfl⟩]
    rfl
  rw [HasPath, isUnion_insert hS (ordered_children_of_ofPath h), Option.isSome_or, hentry,
    Bool.or_true]

/-- A chain of joins changes nothing if and only if it is there. -/
theorem insert_eq_self_iff (hS : Ordered S) (h : ofPath path kind fetch = .ok j) :
    insert S j = S ↔ HasPath S kind path := by
  constructor
  · intro hself
    rw [← hself]
    exact hasPath_insert hS h
  · intro hpath
    have hj := ordered_children_of_ofPath h
    refine (ordered_insert hS hj).eq_of_entryAt_eq hS fun identities => ?_
    rw [isUnion_insert hS hj, entryAt_ofPath h, chainEntry]
    split
    case isTrue hbeginning =>
      obtain ⟨entry, hentry⟩ := Option.isSome_iff_exists.mp
        (isSome_entryAt_of_beginning hbeginning.1 hbeginning.2 hpath)
      rw [hentry, Option.some_or]
    case isFalse => rw [Option.or_none]

end Join

namespace Condition

theorem on_addPathCall_eq (path : String) (kind : JoinKind) (c : Condition) :
    (addPathCall path kind).on c =
      match Join.ofPath path kind true with
      | .ok j => (.ok (Join.survivor c.joins j), c.addJoin j)
      | .error e => (.error e, c) := by
  rw [addPathCall, BuilderCall.on_ofExcept_bind]
  cases Join.ofPath path kind true <;> rfl

theorem on_addPathsCall_eq (paths : List String) (c : Condition) :
    (addPathsCall paths).on c = (c.addPaths paths).swap := by
  induction paths generalizing c with
  | nil => rfl
  | cons path rest ih =>
    rw [addPathsCall, BuilderCall.on_bind, on_addPathCall_eq]
    unfold addPaths addPath
    cases Join.ofPath path .left true with
    | error e => rfl
    | ok j => exact ih (c.addJoin j)

section Calls

variable {c after : Condition} {path : String} {paths before : List String} {kind : JoinKind}
  {e : ConditionError}

theorem addPath_of_on_addPathCall {top : Join}
    (h : (addPathCall path kind).on c = (.ok top, after)) : c.addPath path kind = .ok after := by
  rw [on_addPathCall_eq] at h
  unfold addPath
  cases hpath : Join.ofPath path kind true with
  | error e =>
    rw [hpath] at h
    cases h
  | ok j =>
    rw [hpath] at h
    cases h
    rfl

theorem on_addPathCall_eq_error_iff : (addPathCall path kind).on c = (.error e, after) ↔
    Path.isValid path = false ∧ e = .emptySegment path ∧ after = c := by
  rw [on_addPathCall_eq]
  cases hpath : Join.ofPath path kind true with
  | ok j =>
    refine iff_of_false nofun fun hfails => ?_
    rw [Join.ofPath_eq_error_iff.mpr ⟨hfails.1, rfl⟩] at hpath
    cases hpath
  | error e' =>
    obtain ⟨hvalid, rfl⟩ := Join.ofPath_eq_error_iff.mp hpath
    simp [hvalid, eq_comm]

/-- The step of a call with several paths: the joins along the first path are added, or the call
ends. -/
theorem on_addPathsCall_cons (path : String) (paths : List String) (c : Condition) :
    (addPathsCall (path :: paths)).on c =
      match Join.ofPath path .left true with
      | .ok j => (addPathsCall paths).on (c.addJoin j)
      | .error e => (.error e, c) := by
  rw [addPathsCall, BuilderCall.on_bind, on_addPathCall_eq]
  cases Join.ofPath path .left true <;> rfl

theorem on_addPathsCall_cons_of_refused (h : Path.isValid path = false) (paths : List String)
    (c : Condition) : (addPathsCall (path :: paths)).on c = (.error (.emptySegment path), c) := by
  rw [on_addPathsCall_cons, Join.ofPath_eq_error_iff.mpr ⟨h, rfl⟩]

/-- Paths that are not refused are worked off, and then the others are. -/
theorem exists_on_addPathsCall_append (hbefore : ∀ p ∈ before, Path.isValid p = true)
    (paths : List String) (c : Condition) :
    ∃ after, (addPathsCall before).on c = (.ok (), after) ∧
      (addPathsCall (before ++ paths)).on c = (addPathsCall paths).on after := by
  induction before generalizing c with
  | nil => exact ⟨c, rfl, rfl⟩
  | cons path before ih =>
    rw [List.forall_mem_cons] at hbefore
    obtain ⟨j, hj⟩ := Join.exists_ofPath_of_isValid hbefore.1 .left true
    rw [List.cons_append, on_addPathsCall_cons, on_addPathsCall_cons, hj]
    exact ih hbefore.2 (c.addJoin j)

/-- A call with several paths ends with the first one that is refused, after the joins along the
paths before it. -/
theorem exists_on_addPathsCall_of_first (hbefore : ∀ p ∈ before, Path.isValid p = true)
    (hrefused : Path.isValid path = false) (rest : List String) (c : Condition) :
    ∃ after, (addPathsCall before).on c = (.ok (), after) ∧
      (addPathsCall (before ++ path :: rest)).on c = (.error (.emptySegment path), after) := by
  obtain ⟨after, hon, happend⟩ := exists_on_addPathsCall_append hbefore (path :: rest) c
  exact ⟨after, hon, happend.trans (on_addPathsCall_cons_of_refused hrefused rest after)⟩

/-- Paths of which one is refused have a first one that is refused. -/
theorem exists_first_refused (h : ∃ path ∈ paths, Path.isValid path = false) :
    ∃ before path rest, paths = before ++ path :: rest ∧
      (∀ p ∈ before, Path.isValid p = true) ∧ Path.isValid path = false := by
  have hfind : (paths.find? fun path => !Path.isValid path).isSome := by simpa using h
  obtain ⟨path, hfirst⟩ := Option.isSome_iff_exists.mp hfind
  obtain ⟨hrefused, before, rest, rfl, hbefore⟩ := List.find?_eq_some_iff_append.mp hfirst
  exact ⟨before, path, rest, rfl, by simpa using hbefore, by simpa using hrefused⟩

/-- A call with several paths fails if and only if one of them is refused. -/
theorem exists_error_on_addPathsCall_iff : (∃ e, ((addPathsCall paths).on c).1 = .error e) ↔
    ∃ path ∈ paths, Path.isValid path = false := by
  by_cases hrefused : ∃ path ∈ paths, Path.isValid path = false
  · obtain ⟨before, path, rest, rfl, hbefore, hpath⟩ := exists_first_refused hrefused
    obtain ⟨after, -, hon⟩ := exists_on_addPathsCall_of_first hbefore hpath rest c
    exact iff_of_true ⟨_, congrArg Prod.fst hon⟩ hrefused
  · have hall : ∀ path ∈ paths, Path.isValid path = true := by simpa using hrefused
    obtain ⟨after, hon, -⟩ := exists_on_addPathsCall_append hall [] c
    rw [hon]
    exact iff_of_false nofun hrefused

/-- What a call with several paths has left behind: all joins that were there, and those along the
paths. Nothing else has changed. -/
theorem hasPath_of_on_addPathsCall (hc : Join.Ordered c.joins)
    (h : (addPathsCall paths).on c = (.ok (), after)) :
    (∀ kind path, Join.HasPath c.joins kind path → Join.HasPath after.joins kind path) ∧
      ∀ path ∈ paths, Join.HasPath after.joins .left path := by
  induction paths generalizing c with
  | nil =>
    cases h
    exact ⟨fun _ _ hpath => hpath, nofun⟩
  | cons path paths ih =>
    rw [on_addPathsCall_cons] at h
    cases hpath : Join.ofPath path .left true with
    | error e =>
      rw [hpath] at h
      cases h
    | ok j =>
      rw [hpath] at h
      have hj := Join.ordered_children_of_ofPath hpath
      obtain ⟨hkept, hadded⟩ := ih (Join.ordered_insert hc hj) h
      refine ⟨fun kind path hthere => hkept kind path (hthere.insert hc hj), ?_⟩
      rw [List.forall_mem_cons]
      exact ⟨hkept _ _ (Join.hasPath_insert hc hpath), hadded⟩

/-- A call with several paths changes nothing if and only if all joins along the paths are there. -/
theorem eq_self_of_on_addPathsCall_iff (hc : Join.Ordered c.joins)
    (h : (addPathsCall paths).on c = (.ok (), after)) :
    after = c ↔ ∀ path ∈ paths, Join.HasPath c.joins .left path := by
  constructor
  · rintro rfl
    exact (hasPath_of_on_addPathsCall hc h).2
  · intro hthere
    induction paths with
    | nil =>
      cases h
      rfl
    | cons path paths ih =>
      rw [List.forall_mem_cons] at hthere
      rw [on_addPathsCall_cons] at h
      cases hpath : Join.ofPath path .left true with
      | error e =>
        rw [hpath] at h
        cases h
      | ok j =>
        have hsame : c.addJoin j = c := by
          rw [addJoin, (Join.insert_eq_self_iff hc hpath).mpr hthere.1]
        rw [hpath] at h
        simp only [hsame] at h
        exact ih h hthere.2

/-- A call with several paths fails if and only if a path is refused, the first such path is the
one of the error, and what is left behind is left by the call with the paths before it. -/
theorem on_addPathsCall_eq_error_iff : (addPathsCall paths).on c = (.error e, after) ↔
    ∃ before path rest, paths = before ++ path :: rest ∧
      (∀ p ∈ before, Path.isValid p = true) ∧ Path.isValid path = false ∧
      e = .emptySegment path ∧ (addPathsCall before).on c = (.ok (), after) := by
  constructor
  · intro hfails
    obtain ⟨before, path, rest, rfl, hbefore, hrefused⟩ :=
      exists_first_refused (exists_error_on_addPathsCall_iff.mp ⟨e, congrArg Prod.fst hfails⟩)
    obtain ⟨left, hleft, hon⟩ := exists_on_addPathsCall_of_first hbefore hrefused rest c
    rw [hon] at hfails
    cases hfails
    exact ⟨before, path, rest, rfl, hbefore, hrefused, rfl, hleft⟩
  · rintro ⟨before, path, rest, rfl, hbefore, hrefused, rfl, hleft⟩
    obtain ⟨left, hleft', hon⟩ := exists_on_addPathsCall_of_first hbefore hrefused rest c
    rw [hleft] at hleft'
    cases hleft'
    exact hon

end Calls

/-- What calls leave behind that fail. A call with one path fails only if the path has a blank
segment, and then it changes nothing. A call with several paths fails at the first one with a blank
segment and leaves what the call with the paths before that one leaves, which is what was there if
and only if all joins along those paths were there. -/
theorem failed_calls (c : Condition) (hc : Join.Ordered c.joins) (j : Join) :
    (∀ path kind e after, (addPathCall path kind).on c = (.error e, after) ↔
      Path.isValid path = false ∧ e = .emptySegment path ∧ after = c) ∧
    (∀ path e after, (Join.addChildPathCall path).on j = (.error e, after) ↔
      Path.isValid path = false ∧ e = .emptySegment path ∧ after = j) ∧
    (∀ paths e after, (addPathsCall paths).on c = (.error e, after) ↔
      ∃ before path rest, paths = before ++ path :: rest ∧
        (∀ p ∈ before, Path.isValid p = true) ∧ Path.isValid path = false ∧
        e = .emptySegment path ∧ (addPathsCall before).on c = (.ok (), after)) ∧
    (∀ before after, (addPathsCall before).on c = (.ok (), after) →
      (after = c ↔ ∀ path ∈ before, Join.HasPath c.joins .left path)) :=
  ⟨fun _ _ _ _ => on_addPathCall_eq_error_iff,
    fun _ _ _ => Join.on_addChildPathCall_eq_error_iff,
    fun _ _ _ => on_addPathsCall_eq_error_iff,
    fun _ _ hbefore => eq_self_of_on_addPathsCall_iff hc hbefore⟩

/-- A condition whose joins lead to users: a call that goes there first and then fails leaves it as
it was. -/
theorem failed_calls_user :
    let c : Condition := { joins := [{ key := "user", kind := .left, fetch := true }] }
    Join.Ordered c.joins ∧
      (addPathsCall ["user", "a..b"]).on c = (.error (.emptySegment "a..b"), c) := by
  intro c
  have hc : Join.Ordered c.joins := .cons nofun .nil .nil
  refine ⟨hc, ?_⟩
  obtain ⟨-, -, hpaths, hbefore⟩ := failed_calls c hc default
  obtain ⟨after, hafter, -⟩ := exists_on_addPathsCall_append
    (show ∀ p ∈ ["user"], Path.isValid p = true by decide) [] c
  have hsame : after = c := (hbefore ["user"] after hafter).mpr (by decide)
  exact (hpaths _ _ _).mpr
    ⟨["user"], "a..b", [], rfl, by decide, by decide, rfl, hsame ▸ hafter⟩

/-- A call with two paths that fails at the second one, and the joins along the first one stay. -/
theorem addPathsCall_keeps_before_failure :
    ((addPathsCall ["user", "a..b"]).on {}).1 = .error (.emptySegment "a..b") ∧
      ((addPathsCall ["user", "a..b"]).on {}).2.joins.map (·.key) = ["user"] ∧
      ¬ ∀ (c : Condition) (paths : List String) (e : ConditionError) (after : Condition),
        (addPathsCall paths).on c = (.error e, after) → after = c := by
  have hcall : (addPathsCall ["user", "a..b"]).on {} =
      (.error (.emptySegment "a..b"), { joins := [{ key := "user", kind := .left }] }) := by
    rfl
  refine ⟨congrArg Prod.fst hcall, by rw [hcall]; rfl, fun hunchanged => ?_⟩
  have hjoins := congrArg Condition.joins (hunchanged _ _ _ _ hcall)
  cases hjoins

end Condition

end Criteria
