import Criteria.Proofs.Join.Keys
import Criteria.Proofs.Plan.Acceptance
import Criteria.Proofs.Store.Narrowing

/-!
# Navigating to a row, and joining it

An attribute beyond a relation can be asked for in two ways: by a criterion of the document
whose path leads through the relation, or by a left join with the criterion on its rows. Where
no value on the way is an array, a chain of left joins has one row at most for each of its keys,
and the two ways agree.

## Main definitions

- `Json.ToOne`: no value on the way along keys is an array
- `Json.rowsAlong`: the rows along keys, each of which has one row at most
- `Join.chainTo`: a chain of left joins with a filter on the last of them
- `Plan.Decides`: a plan accepts a document or not, and returns it once at most
- `Condition.navigate`, `Condition.joinAlong`: the two ways to ask for an attribute

## Main statements

- `Json.bind_follow?_rowsAlong`: the last row leads where the whole path leads
- `Join.extendAlong_chainTo`: the rows along a chain are its only binding
- `Condition.navigate_agrees`: both ways make plans that decide on each document alike
-/

namespace Criteria

namespace Json

/-- A value that is missing or null is no row. -/
def present? : Option Json → Option Json
  | some .null => none
  | value => value

/-- No value on the way along keys is an array. -/
def ToOne (d : Json) (keys : List String) : Prop :=
  ∀ before, before <+: keys → before ≠ [] → ∀ items, d.follow? before ≠ some (.array items)

/-- The rows along keys, each of which has one row at most. -/
def rowsAlong : List String → Option Json → Binding
  | [], _ => []
  | key :: rest, base =>
    let row := present? (base.bind (·.get? key))
    row :: rowsAlong rest row

theorem eq_of_present?_eq_some {value : Option Json} {row : Json} (h : present? value = some row) :
    value = some row := by
  unfold present? at h
  split at h
  · cases h
  · exact h

/-- A path goes nowhere from null. -/
theorem bind_follow?_present? {names : List String} (hnames : names ≠ []) (value : Option Json) :
    (present? value).bind (follow? names) = value.bind (follow? names) := by
  unfold present?
  split
  · cases names with
    | nil => exact absurd rfl hnames
    | cons name rest => rfl
  · rfl

theorem bind_get?_bind_follow? (base : Option Json) (key : String) (names : List String) :
    (base.bind (·.get? key)).bind (follow? names) = base.bind (follow? (key :: names)) := by
  cases base <;> rfl

/-- The last of the rows along keys leads where the document leads along all of the keys. -/
theorem bind_follow?_rowsAlong {names : List String} (hnames : names ≠ []) (first : String)
    (rest : List String) (base : Option Json) :
    (rowsAlong (first :: rest) base)[rest.length]?.join.bind (follow? names) =
      base.bind (follow? (first :: rest ++ names)) := by
  induction rest generalizing first base with
  | nil =>
    show (present? (base.bind (·.get? first))).bind (follow? names) = _
    rw [bind_follow?_present? hnames, bind_get?_bind_follow?]
    rfl
  | cons second rest ih =>
    show (rowsAlong (second :: rest) (present? (base.bind (·.get? first))))[rest.length]?.join.bind
      (follow? names) = _
    -- the row of the first key may be missing, and then nothing is found below it either
    have hbelow : second :: rest ++ names ≠ [] := List.cons_ne_nil second (rest ++ names)
    rw [ih, bind_follow?_present? hbelow, bind_get?_bind_follow?]
    rfl

theorem toOne_nil (d : Json) : d.ToOne [] :=
  fun _ hbefore hne => absurd (List.prefix_nil.mp hbefore) hne

/-- The way along keys starts with the value at the first of them. -/
theorem toOne_cons_iff {d : Json} {key : String} {rest : List String} :
    d.ToOne (key :: rest) ↔ (∀ items, d.get? key ≠ some (.array items)) ∧
      ∀ row, d.get? key = some row → row.ToOne rest := by
  constructor
  · intro h
    refine ⟨fun items => ?_, fun row hrow before hbefore _ items => ?_⟩
    · have hkey := h [key] (List.prefix_append [key] rest) (List.cons_ne_nil key []) items
      simpa [follow?] using hkey
    · have hlonger := h (key :: before) (List.cons_prefix_cons.mpr ⟨rfl, hbefore⟩)
        (List.cons_ne_nil key before) items
      rwa [follow?, hrow, Option.bind_some] at hlonger
  · rintro ⟨hkey, hrest⟩ before hbefore hne items hitems
    rcases before with - | ⟨first, below⟩
    · exact hne rfl
    · obtain ⟨rfl, hbelow⟩ := List.cons_prefix_cons.mp hbefore
      obtain ⟨row, hrow, hfollow⟩ := Option.bind_eq_some_iff.mp hitems
      rcases below with - | ⟨second, below⟩
      · obtain rfl := Option.some_inj.mp hfollow
        exact hkey items hrow
      · exact hrest row hrow _ hbelow (List.cons_ne_nil second below) items hfollow

end Json

namespace Traversal

variable {t : Traversal} {d : Json} {binding : Binding}

theorem choices_of_ne_array (hkind : t.kind.keepsUnmatched = true)
    (h : ∀ items, (t.base? d binding).bind (·.get? t.key) ≠ some (.array items)) :
    t.choices d binding = [Json.present? ((t.base? d binding).bind (·.get? t.key))] := by
  rw [choices, rows, rowsAt, hkind]
  cases hvalue : (t.base? d binding).bind (·.get? t.key) with
  | none => rfl
  | some value =>
    cases value with
    | array items => exact absurd hvalue (h items)
    | null => rfl
    | _ => rfl

/-- A relation to one row at most extends a binding in one way, which every limit allows. -/
theorem extendAll_of_toOne {limit : Nat} {base : Option Json} {rest : List String}
    (hlimit : 1 ≤ limit) (hkind : t.kind.keepsUnmatched = true) (hbase : t.base? d binding = base)
    (hrow : ∀ row, base = some row → row.ToOne (t.key :: rest)) :
    t.extendAll limit d 0 [binding] =
      .ok [binding ++ [Json.present? (base.bind (·.get? t.key))]] := by
  subst hbase
  have hextensions := t.extensions_eq d binding
  rw [choices_of_ne_array hkind, List.map_singleton] at hextensions
  · have hlength : ¬ limit < 0 + 1 := by omega
    simp only [extendAll, hextensions, List.length_singleton, hlength, decide_false,
      Bool.false_and, Bool.false_eq_true, if_false]
    rfl
  · intro items hitems
    obtain ⟨row, hbase, hget⟩ := Option.bind_eq_some_iff.mp hitems
    exact (Json.toOne_cons_iff.mp (hrow row hbase)).1 items hget

end Traversal

namespace Join

/-- The chain of left joins along keys, with a filter on the last of them. -/
def chainTo (filter : Filter) (first : String) : List String → Join
  | [] => { key := first, kind := .left, filter }
  | second :: rest => { key := first, kind := .left, children := [chainTo filter second rest] }

theorem updateAlong_chain {first : String} {rest : List String}
    (htrim : ∀ name ∈ first :: rest, Text.trim name = name) (change : Filter → Filter) :
    updateAlong (fun j => { j with filter := change j.filter }) rest (chain .left true first rest) =
      chainTo (change {}) first rest := by
  induction rest generalizing first with
  | nil =>
    rw [chain, htrim first List.mem_cons_self]
    rfl
  | cons second rest ih =>
    rw [chain, htrim first List.mem_cons_self, updateAlong, updateKey, if_pos]
    · rw [ih fun name hname => htrim name (List.mem_cons_of_mem first hname)]
      rfl
    · have hsecond := htrim second (by simp)
      cases rest <;> exact hsecond

theorem visits_chainTo_cons (mode : TraversalMode) (parent : Option Nat) (next : Nat)
    (filter : Filter) (first second : String) (rest : List String) :
    visits mode parent next (chainTo filter first (second :: rest)) =
      ⟨⟨next, parent, first, .left, mode⟩, {}⟩ ::
        visits mode (some next) (next + 1) (chainTo filter second rest) := by
  rw [chainTo, visits, visitsOf, visitsOf, List.append_nil]

/-- A chain has a filter on its last join, which has the last of its numbers, and nowhere else. -/
theorem exists_visits_chainTo (mode : TraversalMode) (parent : Option Nat) (next : Nat)
    (filter : Filter) (first : String) (rest : List String) :
    ∃ (before : List Visit) (last : Traversal),
      visits mode parent next (chainTo filter first rest) = before ++ [⟨last, filter⟩] ∧
        (∀ v ∈ before, v.filter = {}) ∧ last.id = next + rest.length := by
  induction rest generalizing first parent next with
  | nil => exact ⟨[], ⟨next, parent, first, .left, mode⟩, rfl, by simp, rfl⟩
  | cons second rest ih =>
    obtain ⟨before, last, hvisits, hbefore, hlast⟩ := ih (some next) (next + 1) second
    refine ⟨⟨⟨next, parent, first, .left, mode⟩, {}⟩ :: before, last, ?_, ?_, ?_⟩
    · rw [visits_chainTo_cons, hvisits, List.cons_append]
    · exact List.forall_mem_cons.mpr ⟨rfl, hbefore⟩
    · rw [hlast, List.length_cons]
      omega

/-- The rows along a chain are the only binding of its traversals, whatever the limit. The
induction is on the keys; the binding so far leads to what the chain starts from. -/
theorem extendAlong_chainTo {limit : Nat} (hlimit : 1 ≤ limit) (d : Json) (mode : TraversalMode)
    (filter : Filter) {first : String} {rest : List String} {parent : Option Nat}
    {binding : Binding} {base : Option Json}
    (hbase : ∀ t : Traversal, t.parent = parent → t.base? d binding = base)
    (hrow : ∀ row, base = some row → row.ToOne (first :: rest)) :
    extendAlong limit d
        ((visits mode parent binding.length (chainTo filter first rest)).map (·.traversal))
        [binding] =
      .ok [binding ++ Json.rowsAlong (first :: rest) base] := by
  induction rest generalizing first parent binding base with
  | nil =>
    let t : Traversal := ⟨binding.length, parent, first, .left, mode⟩
    show (t.extendAll limit d 0 [binding]).bind (extendAlong limit d []) = _
    rw [Traversal.extendAll_of_toOne hlimit rfl (hbase t rfl) hrow]
    rfl
  | cons second rest ih =>
    let t : Traversal := ⟨binding.length, parent, first, .left, mode⟩
    let row := Json.present? (base.bind (·.get? first))
    -- the row that has just been found is what the rest of the chain starts from
    have hbase' (u : Traversal) (hu : u.parent = some binding.length) :
        u.base? d (binding ++ [row]) = row := by
      rw [Traversal.base?, hu]
      show (binding ++ [row])[binding.length]?.join = row
      rw [List.getElem?_concat_length]
      rfl
    have hrow' (below : Json) (hbelow : row = some below) : below.ToOne (second :: rest) := by
      obtain ⟨above, habove, hget⟩ :=
        Option.bind_eq_some_iff.mp (Json.eq_of_present?_eq_some hbelow)
      exact (Json.toOne_cons_iff.mp (hrow above habove)).2 below hget
    have hrest := ih hbase' hrow'
    rw [List.length_append, List.length_singleton] at hrest
    rw [visits_chainTo_cons, List.map_cons]
    show (t.extendAll limit d 0 [binding]).bind (extendAlong limit d _) = _
    rw [Traversal.extendAll_of_toOne hlimit rfl (hbase t rfl) hrow]
    show extendAlong limit d _ [binding ++ [row]] = _
    rw [hrest, List.append_assoc]
    rfl

end Join

namespace Plan

variable {p p' : Plan} {d : Json} {found : Bool}

/-- A plan accepts a document or not, whatever the limit, and returns it once at most, wherever it
stands among others. -/
structure Decides (p : Plan) (d : Json) (found : Bool) : Prop where
  accepts : ∀ limit, p.accepts limit d = .ok found
  select : ∀ limit before after, p.select limit (before ++ d :: after) = do
    let a ← p.select limit before
    let b ← p.select limit after
    return a ++ (⟨if found then [d] else [], 1, 1⟩ ++ b)

theorem decides_of_bindings? {binding : Binding}
    (h : ∀ limit, 1 ≤ limit → d.bindings? p.traversals limit = .ok [binding]) :
    p.Decides d (p.predicate.eval ⟨d, binding⟩).isTrue := by
  have hcounts (limit : Nat) : p.counts (max limit 1) d =
      .ok (1, if (p.predicate.eval ⟨d, binding⟩).isTrue then 1 else 0) := by
    rw [counts_of_bindings? (h (max limit 1) (by omega)), List.countP_singleton]
    rfl
  generalize (p.predicate.eval ⟨d, binding⟩).isTrue = found at hcounts ⊢
  constructor
  · intro limit
    rw [accepts, acceptsWith_eq_counts (PatternEngine.standard_usable p), hcounts]
    cases found <;> rfl
  · intro limit before after
    have hcopies : p.copies (if found then 1 else 0) = if found then 1 else 0 := by
      unfold copies
      cases found <;> cases p.distinct <;> rfl
    rw [select_eq, select_eq, select_eq, selectBy_append, selectBy_cons, hcounts]
    show (p.selectBy _ [] 0 0 before).bind
      (fun a => ((p.selectBy _ [] 0 0 after).map _).bind _) = _
    rw [hcopies]
    cases p.selectBy (p.counts (max limit 1)) [] 0 0 before with
    | error e => rfl
    | ok a =>
      cases p.selectBy (p.counts (max limit 1)) [] 0 0 after with
      | error e => rfl
      | ok b => cases found <;> rfl

/-- Plans that decide alike on each document select the same documents, none of them twice. -/
theorem select_of_decides {documents : List Json} (limit : Nat)
    (h : ∀ d ∈ documents, ∃ found, p.Decides d found ∧ p'.Decides d found) :
    ∃ s, p.select limit documents = .ok s ∧ p'.select limit documents = .ok s ∧
      s.documents.Sublist documents := by
  induction documents with
  | nil => exact ⟨{}, rfl, rfl, List.Sublist.refl []⟩
  | cons d rest ih =>
    obtain ⟨s, hs, hs', hsublist⟩ := ih fun d hd => h d (List.mem_cons_of_mem _ hd)
    obtain ⟨found, hfound, hfound'⟩ := h d List.mem_cons_self
    have hcons := hfound.select limit [] rest
    have hcons' := hfound'.select limit [] rest
    rw [hs, List.nil_append] at hcons
    rw [hs', List.nil_append] at hcons'
    refine ⟨_, hcons, hcons', ?_⟩
    cases found
    · exact hsublist.cons d
    · exact hsublist.cons_cons d

end Plan

namespace Condition

/-- The condition with a criterion for an attribute beyond a path, which is navigated to from the
document. -/
def navigate (c : Condition) (path : String) (k : Criterion) : Condition :=
  { c with filter := c.filter.push { k with path := path ++ "." ++ k.path } }

/-- The condition with the left joins along a path and a criterion on the last of them. -/
def joinAlong (c : Condition) (path : String) (k : Criterion) :
    Except ConditionError Condition := do
  let c ← c.addPath path
  match Path.parts path with
  | [] => return c
  | first :: rest =>
    let attach (j : Join) : Join := { j with filter := j.filter.push k }
    let top : JoinIdentity := ⟨Text.trim first, .left⟩
    return { c with joins := Join.update top (Join.updateAlong attach rest) c.joins }

variable {c : Condition} {path : String}

/-- The condition with one chain of left joins and a criterion on the last of them. -/
def withChain (c : Condition) (first : String) (rest : List String) (k : Criterion) : Condition :=
  { c with joins := [Join.chainTo { criteria := [k] } first rest] }

theorem joinAlong_eq {first : String} {rest : List String} (hjoins : c.joins = [])
    (hparts : Path.parts path = first :: rest)
    (hpath : ∀ name ∈ Path.parts path, Text.isBlank name = false ∧ Text.trim name = name)
    (k : Criterion) : c.joinAlong path k = .ok (c.withChain first rest k) := by
  have hsegments : Path.segments path = .ok (first :: rest) := by
    refine Path.segments_eq_ok_iff.mpr ⟨?_, hparts.symm⟩
    exact (Criterion.isValid_eq_true_iff path).mpr fun name hname => (hpath name hname).1
  have htrim : ∀ name ∈ first :: rest, Text.trim name = name := by
    rw [← hparts]
    exact fun name hname => (hpath name hname).2
  have hadded : c.addPath path = .ok { c with joins := [Join.chain .left true first rest] } := by
    rw [addPath, Join.ofPath, hsegments]
    show Except.ok (c.addJoin (Join.chain .left true first rest)) = _
    rw [addJoin, hjoins, Join.insert, Join.insertInto_eq]
    rfl
  have hidentity : (Join.chain .left true first rest).identity = ⟨Text.trim first, .left⟩ := by
    cases rest <;> rfl
  have hattach := Join.updateAlong_chain htrim (fun filter => filter.push k)
  rw [joinAlong, hadded, hparts]
  show Except.ok { c with joins := Join.update _ _ [Join.chain .left true first rest] } = _
  rw [Join.update, if_pos hidentity, hattach]
  rfl

/-- Whatever a chain has of its filters, it has of the one on its last join. -/
theorem exists_flatMap_withChain (c : Condition) (first : String) (rest : List String)
    (k : Criterion) :
    ∃ last : Traversal, last.id = rest.length ∧
      ∀ {β : Type} (g : Visit → List β), (∀ v, v.filter = {} → g v = []) →
        (c.withChain first rest k).plainVisits.flatMap g = g ⟨last, { criteria := [k] }⟩ := by
  obtain ⟨before, last, hvisits, hbefore, hlast⟩ :=
    Join.exists_visits_chainTo .join none 0 { criteria := [k] } first rest
  refine ⟨last, by omega, fun g hg => ?_⟩
  have hnone : before.flatMap g = [] :=
    List.flatMap_eq_nil_iff.mpr fun v hv => hg v (hbefore v hv)
  rw [plainVisits, withChain, Join.visitsOf, Join.visitsOf, List.append_nil, hvisits,
    List.flatMap_append, hnone, List.nil_append, List.flatMap_singleton]

theorem consulted_withChain (c : Condition) (first : String) (rest : List String)
    (k : Criterion) : (c.withChain first rest k).consulted = c.filter.consulted ++ [k] := by
  obtain ⟨last, -, hflatMap⟩ := c.exists_flatMap_withChain first rest k
  rw [consulted_eq_plainVisits, hflatMap _ fun v hv => by rw [hv]; rfl]
  rfl

theorem eval_plan_withChain (c : Condition) (first : String) (rest : List String) (k : Criterion)
    (purpose : Purpose) (d : Json) (binding : Binding) :
    ((c.withChain first rest k).plan purpose).predicate.eval ⟨d, binding⟩ =
      ((Truth.all (truthsOn (some d) c.filter.criteria)).and
        (Truth.all (Truth.pool (truthsOn (some d) c.filter.alternatives)))).and
      (Truth.all (truthsOn binding[rest.length]?.join [k])) := by
  obtain ⟨last, hlast, hflatMap⟩ := c.exists_flatMap_withChain first rest k
  have hcriteria : Visit.truths Filter.criteria binding (c.withChain first rest k).plainVisits =
      truthsOn binding[rest.length]?.join [k] := by
    rw [Visit.truths, hflatMap _ fun v hv => by rw [hv]; rfl, hlast]
  have halternatives :
      Visit.truths Filter.alternatives binding (c.withChain first rest k).plainVisits = [] := by
    rw [Visit.truths, hflatMap _ fun v hv => by rw [hv]; rfl]
    rfl
  have hnone : Truth.all (Truth.pool []) = .true := rfl
  rw [eval_plan, hcriteria, halternatives, hnone, Truth.and_true]
  rfl

theorem eval_plan_navigate (hjoins : c.joins = []) (path : String) (k : Criterion)
    (purpose : Purpose) (d : Json) (binding : Binding) :
    ((c.navigate path k).plan purpose).predicate.eval ⟨d, binding⟩ =
      ((Truth.all (truthsOn (some d) c.filter.criteria)).and
        (Truth.all (truthsOn (some d) [{ k with path := path ++ "." ++ k.path }]))).and
      (Truth.all (Truth.pool (truthsOn (some d) c.filter.alternatives))) := by
  have hplain : (c.navigate path k).plainVisits = [] := by
    rw [plainVisits, navigate, hjoins]
    rfl
  have hcriteria : truthsOn (some d) (c.navigate path k).filter.criteria =
      truthsOn (some d) c.filter.criteria ++
        truthsOn (some d) [{ k with path := path ++ "." ++ k.path }] := by
    simp only [navigate, Filter.push, truthsOn, List.filter_append, List.map_append]
  have hnone (criteria : Filter → List Criterion) : Visit.truths criteria binding [] = [] := rfl
  rw [eval_plan, hplain, hcriteria, Truth.all_append, hnone, hnone]
  exact Truth.and_true _

/-- On the last row of a chain, a criterion is as true as it is beyond the path on the document. -/
theorem truthsOn_rowsAlong {first : String} {rest : List String}
    (hparts : Path.parts path = first :: rest) (k : Criterion) (d : Json) :
    truthsOn (Json.rowsAlong (first :: rest) (some d))[rest.length]?.join [k] =
      truthsOn (some d) [{ k with path := path ++ "." ++ k.path }] := by
  have hrow : (Json.rowsAlong (first :: rest) (some d))[rest.length]?.join.bind
      (·.resolve? k.path) = (some d).bind (·.resolve? (path ++ "." ++ k.path)) := by
    have hlast := Json.bind_follow?_rowsAlong (Path.parts_ne_nil k.path) first rest (some d)
    rw [← hparts, ← Path.parts_append, hparts] at hlast
    exact hlast
  have htruth := Criterion.truthOn_congr hrow k.value k.operator
  have hskipped : ({ k with path := path ++ "." ++ k.path } : Criterion).isSkipped = k.isSkipped :=
    rfl
  rw [truthsOn, truthsOn, List.filter_singleton, List.filter_singleton, hskipped]
  cases k.isSkipped with
  | true => rfl
  | false => exact congrArg (fun t => [t]) htruth

theorem checkActives_navigate
    (hpath : ∀ name ∈ Path.parts path, Text.isBlank name = false) (k : Criterion) :
    checkActives (c.navigate path k).filter.consulted = .ok () ↔
      checkActives (c.filter.consulted ++ [k]) = .ok () := by
  have hbeyond : ({ k with path := path ++ "." ++ k.path } : Criterion).Accepted ↔ k.Accepted := by
    simp only [Criterion.Accepted, Criterion.WellFormed, Criterion.isSkipped, Path.parts_append,
      List.forall_mem_append]
    have hparts := iff_of_true hpath trivial
    rw [hparts, true_and]
  rw [checkActives_eq_ok_iff, checkActives_eq_ok_iff]
  simp only [navigate, Filter.push, Filter.consulted, Filter.alternatives, List.forall_mem_append,
    List.forall_mem_singleton, hbeyond]
  exact and_right_comm

theorem decides_withChain {first : String} {rest : List String} {d : Json}
    (h : d.ToOne (first :: rest)) (c : Condition) (k : Criterion) (purpose : Purpose) :
    ((c.withChain first rest k).plan purpose).Decides d
      (((c.withChain first rest k).plan purpose).predicate.eval
        ⟨d, Json.rowsAlong (first :: rest) (some d)⟩).isTrue := by
  refine Plan.decides_of_bindings? fun limit hlimit => ?_
  let chain := Join.chainTo { criteria := [k] } first rest
  let mode := chain.mode ((c.withChain first rest k).mayFetch purpose)
  have hvisits : (c.withChain first rest k).visits purpose = Join.visits mode none 0 chain := by
    rw [visits, withChain, Join.topVisits, Join.topVisits, List.append_nil]
    rfl
  have hbase (t : Traversal) (ht : t.parent = none) : t.base? d [] = some d := by
    rw [Traversal.base?, ht]
  have hrow (row : Json) (hd : some d = some row) : row.ToOne (first :: rest) := by
    rwa [← Option.some_inj.mp hd]
  rw [plan, hvisits]
  exact Join.extendAlong_chainTo hlimit d mode _ hbase hrow

theorem decides_navigate (hjoins : c.joins = []) (path : String) (k : Criterion)
    (purpose : Purpose) (d : Json) :
    ((c.navigate path k).plan purpose).Decides d
      (((c.navigate path k).plan purpose).predicate.eval ⟨d, []⟩).isTrue := by
  refine Plan.decides_of_bindings? fun limit _ => ?_
  have htraversals : ((c.navigate path k).plan purpose).traversals = [] := by
    rw [plan, visits, navigate, hjoins]
    rfl
  rw [htraversals]
  rfl

/-- A criterion on the last of the left joins along a path agrees with the criterion on the
document whose path leads through them. Whatever the criterion and the rest of the condition,
the joins can be added, and both conditions have a plan or neither has. These plans accept the
same documents of those where no value on the way is an array, under every limit, and the joins
repeat none of them, distinct or not; so both ways select the same rows of a store of such
documents. -/
theorem navigate_agrees (hjoins : c.joins = [])
    (hpath : ∀ name ∈ Path.parts path, Text.isBlank name = false ∧ Text.trim name = name)
    (k : Criterion) :
    ∃ joined, c.joinAlong path k = .ok joined ∧ ∀ purpose,
      ((∃ p, joined.compile purpose = .ok p) ↔
        ∃ p, (c.navigate path k).compile purpose = .ok p) ∧
      ∀ p p', joined.compile purpose = .ok p → (c.navigate path k).compile purpose = .ok p' →
        (∀ d, d.ToOne (Path.parts path) → ∃ found, p.Decides d found ∧ p'.Decides d found) ∧
        ∀ s : Store, (∀ d ∈ s.documents, d.ToOne (Path.parts path)) →
          ∃ rows, (s.run joined purpose).outcome = .ok rows ∧
            (s.run (c.navigate path k) purpose).outcome = .ok rows ∧
            rows.Sublist s.documents := by
  cases hparts : Path.parts path with
  | nil => exact absurd hparts (Path.parts_ne_nil path)
  | cons first rest =>
    refine ⟨_, joinAlong_eq hjoins hparts hpath k, fun purpose => ⟨?_, fun p p' hp hp' => ?_⟩⟩
    · have hconsulted : (c.navigate path k).consulted = (c.navigate path k).filter.consulted := by
        rw [consulted_eq_plainVisits, plainVisits, navigate, hjoins]
        exact List.append_nil _
      simp only [compile_eq_ok_iff, exists_and_left, exists_eq', and_true, consulted_withChain,
        hconsulted, checkActives_navigate fun name hname => (hpath name hname).1]
    · obtain ⟨-, rfl⟩ := compile_eq_ok_iff.mp hp
      obtain ⟨-, rfl⟩ := compile_eq_ok_iff.mp hp'
      have hdecides (d : Json) (hd : d.ToOne (first :: rest)) :
          ∃ found, ((c.withChain first rest k).plan purpose).Decides d found ∧
            ((c.navigate path k).plan purpose).Decides d found := by
        refine ⟨_, decides_withChain hd c k purpose, ?_⟩
        have htruth : ((c.withChain first rest k).plan purpose).predicate.eval
            ⟨d, Json.rowsAlong (first :: rest) (some d)⟩ =
              ((c.navigate path k).plan purpose).predicate.eval ⟨d, []⟩ := by
          rw [eval_plan_withChain, eval_plan_navigate hjoins, truthsOn_rowsAlong hparts,
            Truth.and_assoc, Truth.and_assoc,
            Truth.and_comm (Truth.all (Truth.pool _))]
        rw [htruth]
        exact decides_navigate hjoins path k purpose d
      refine ⟨hdecides, fun s hs => ?_⟩
      obtain ⟨found, hfound, hfound', hsublist⟩ := Plan.select_of_decides
        s.settings.bindingLimit fun d hd => hdecides d (hs d hd)
      refine ⟨found.documents, ?_, ?_, hsublist⟩
      · rw [Store.outcome_run, hp, Except.mapError, Except.bind, hfound]
        rfl
      · rw [Store.outcome_run, hp', Except.mapError, Except.bind, hfound']
        rfl

/-- A post by an author of the core team. -/
def corePost : Json :=
  .object [("author", .object [("team", .object [("name", .text "core")])])]

/-- Posts by an author of the core team, by one of no team, by a number, and by nobody. -/
def teamPosts : Store where
  entity := "posts"
  documents :=
    [corePost, .object [("author", .object [("team", .null)])],
     .object [("author", .ofNat 7)], .object []]

def namedCore : Criterion :=
  ⟨"name", .text "core", .equals⟩

/-- The name of the team is asked for on the rows of two joins, or from the posts. -/
theorem navigate_agrees_teamPosts :
    ∃ joined, ({} : Condition).joinAlong "author.team" namedCore = .ok joined ∧
      (teamPosts.run joined .documents).outcome = .ok [corePost] ∧
      (teamPosts.run (({} : Condition).navigate "author.team" namedCore) .documents).outcome =
        .ok [corePost] := by
  have hparts : Path.parts "author.team" = ["author", "team"] := by decide
  have hpath : ∀ name ∈ Path.parts "author.team",
      Text.isBlank name = false ∧ Text.trim name = name := by
    rw [hparts]
    decide
  obtain ⟨joined, hjoined, hagrees⟩ := navigate_agrees (c := {}) rfl hpath namedCore
  obtain ⟨hcompiles, hplans⟩ := hagrees .documents
  have hp' : (({} : Condition).navigate "author.team" namedCore).compile .documents = .ok _ :=
    compile_eq_ok_iff.mpr ⟨(by decide), rfl⟩
  obtain ⟨p, hp⟩ := hcompiles.mpr ⟨_, hp'⟩
  obtain ⟨-, hstores⟩ := hplans p _ hp hp'
  have htoOne : ∀ d ∈ teamPosts.documents, d.ToOne (Path.parts "author.team") := by
    rw [hparts]
    simp [teamPosts, corePost, Json.toOne_cons_iff, Json.toOne_nil, Json.get?, Json.lookup?,
      Json.ofNat]
  obtain ⟨rows, hrows, hrows', -⟩ := hstores teamPosts htoOne
  have hcore : (teamPosts.run (({} : Condition).navigate "author.team" namedCore)
      .documents).outcome = .ok [corePost] := rfl
  refine ⟨joined, hjoined, ?_, hcore⟩
  rw [hrows, ← hrows', hcore]

end Condition

end Criteria
