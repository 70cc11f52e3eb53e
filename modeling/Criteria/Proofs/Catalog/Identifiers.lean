import Criteria.Catalog
import Criteria.Proofs.Double.Integers
import Criteria.Proofs.Store.Narrowing

/-!
# Integers in criteria, and integer identifiers

Integers are compared as floating-point numbers. So comparisons of integers are right where
rounding tells them apart, and integers that become one number count as equal. A look-up by an
integer identifier finds no other identifier if it has fewer than 54 bits, but it may find
another one if it has more.

## Main statements

- `Store.truthOn_of_mem_findAll`: the rows of an answer meet the criteria on documents
- `Catalog.truthOn_of_findById`: so does what a look-up finds
- `Catalog.integers_compare`: comparisons of integers, and look-ups by them
-/

namespace Criteria

section Comparison

variable {i j : Int}

theorem Json.compare?_ofInt (i j : Int) :
    (Json.ofInt i).compare? (.ofInt j) = (Double.ofInt i).compare? (.ofInt j) := rfl

/-- Integers count as equal if and only if they are rounded to one number. -/
theorem truthOfEqual_ofInt : truthOfEqual (some (.ofInt j)) (.ofInt i) =
    .ofBool (Double.ofInt j = .ofInt i) := by
  have hnumber : (Json.ofInt i).isNull = false := rfl
  simp only [truthOfEqual, hnumber, Bool.false_eq_true, if_false]
  congr 1
  rw [Bool.eq_iff_iff, beq_iff_eq, decide_eq_true_iff, Json.compare?_ofInt,
    Double.compare?_ofInt_eq_iff]

theorem truthOfEqual_ofInt_of_tellsApart (h : Double.TellsApart j i) :
    truthOfEqual (some (.ofInt j)) (.ofInt i) = .ofBool (j = i) := by
  rw [truthOfEqual_ofInt]
  congr 1
  exact decide_eq_decide.mpr ⟨h, congrArg _⟩

/-- An order relation between integers that are told apart is the one of the integers. -/
theorem truthOfOrder_ofInt (h : Double.TellsApart j i) {accept : Ordering → Bool} {r : Prop}
    [Decidable r] (hr : accept (compare j i) = true ↔ r) :
    truthOfOrder (some (.ofInt j)) (.ofInt i) accept = .ofBool r := by
  simp only [truthOfOrder, Option.bind_some, Json.compare?_ofInt, Double.compare?_ofInt h]
  congr 1
  rwa [Bool.eq_iff_iff, decide_eq_true_iff]

theorem compare_beq_gt : (compare j i == .gt) = true ↔ i < j := by
  rw [beq_iff_eq, Int.compare_eq_gt]

theorem compare_beq_lt : (compare j i == .lt) = true ↔ j < i := by
  rw [beq_iff_eq, Int.compare_eq_lt]

theorem compare_bne_lt : (compare j i != .lt) = true ↔ i ≤ j := by
  rw [bne_iff_ne, ne_eq, Int.compare_eq_lt, Int.not_lt]

theorem compare_bne_gt : (compare j i != .gt) = true ↔ j ≤ i := by
  rw [bne_iff_ne, ne_eq, Int.compare_eq_gt, Int.not_lt]

theorem Truth.any_ofBool (bs : List Bool) : any (bs.map ofBool) = ofBool (bs.any id) := by
  induction bs with
  | nil => rfl
  | cons b rest ih =>
    rw [List.map_cons, any_cons, ih]
    cases b <;> simp [ofBool]

theorem Truth.ofBool_eq_true_iff {b : Bool} : ofBool b = .true ↔ b = Bool.true := by
  cases b <;> simp [ofBool]

/-- An integer is one of several if it is told apart from each of them. -/
theorem any_truthOfEqual_ofInt {is : List Int} (h : ∀ i ∈ is, Double.TellsApart j i) :
    Truth.any (is.map fun i => truthOfEqual (some (.ofInt j)) (.ofInt i)) = .ofBool (j ∈ is) := by
  have heach : is.map (fun i => truthOfEqual (some (.ofInt j)) (.ofInt i)) =
      (is.map fun i => decide (j = i)).map Truth.ofBool := by
    rw [List.map_map]
    exact List.map_congr_left fun i hi => truthOfEqual_ofInt_of_tellsApart (h i hi)
  rw [heach, Truth.any_ofBool]
  congr 1
  rw [Bool.eq_iff_iff, decide_eq_true_iff]
  simp

end Comparison

namespace Store

/-- The rows of an answer are documents of the store that meet all criteria on documents. -/
theorem truthOn_of_mem_findAll {s : Store} {c : Condition} {rows : List Json} {d : Json}
    (h : (s.findAll c).outcome = .ok rows) (hd : d ∈ rows) :
    d ∈ s.documents ∧
      ∀ k ∈ c.filter.criteria, k.isSkipped = false → k.truthOn (some d) = .true := by
  obtain ⟨found, -, hselect, rfl⟩ := exists_select_of_outcome_run_eq_ok h
  rw [Plan.eq_of_select_eq_ok hselect, List.mem_flatMap] at hd
  obtain ⟨document, hdocument, hcopy⟩ := hd
  obtain ⟨hcopies, rfl⟩ := List.mem_replicate.mp hcopy
  obtain ⟨binding, -, htrue⟩ := Plan.hits_pos_iff.mp (Plan.copies_ne_zero_iff.mp hcopies)
  rw [Condition.eval_plan, Truth.and_eq_true_iff, Truth.and_eq_true_iff] at htrue
  refine ⟨hdocument, fun k hk hskipped => Truth.all_eq_true_iff.mp htrue.1.1 _ ?_⟩
  exact List.mem_map_of_mem (List.mem_filter.mpr ⟨hk, by rw [hskipped]; rfl⟩)

end Store

namespace Catalog

variable {k : Catalog} {paths : List String} {d : Json}

/-- Adding joins to load leaves the filter as it is. -/
theorem filter_of_withPaths {c c' : Condition} (h : (withPaths c paths).outcome = .ok c') :
    c'.filter = c.filter := by
  obtain ⟨u, -, h⟩ := Logged.exists_of_outcome_bind_eq_ok h
  obtain ⟨v, -, h⟩ := Logged.exists_of_outcome_bind_eq_ok h
  obtain rfl := Except.ok.inj h
  obtain ⟨joins, -, hjoins⟩ :=
    Condition.exists_foldl_addJoin_of_addPaths (P := fun _ _ => True) trivial c paths
  show (c.addPaths paths).1.filter = c.filter
  rw [hjoins, Condition.foldl_addJoin]

/-- What a look-up finds is a document of the store of which the identifier equals the one
looked for. -/
theorem truthOn_of_findById {id : Value} (h : (k.findById id paths).outcome = .ok d) :
    d ∈ k.store.documents ∧ (⟨k.idField, id, .equals⟩ : Criterion).truthOn (some d) = .true := by
  obtain ⟨u, hrequire, h⟩ := Logged.exists_of_outcome_bind_eq_ok h
  have hnull : id.isNull = false := by
    cases hid : id.isNull with
    | false => rfl
    | true =>
      rw [requireId, hid, if_pos rfl] at hrequire
      cases hrequire
  obtain ⟨rows, hrows, hfirst⟩ := Logged.exists_of_outcome_bind_eq_ok h
  obtain ⟨c, hpaths, hfind⟩ := Logged.exists_of_outcome_bind_eq_ok hrows
  have hmem : d ∈ rows := by
    cases rows with
    | nil => cases hfirst
    | cons row rest =>
      obtain rfl := Except.ok.inj hfirst
      exact List.mem_cons_self
  obtain ⟨hdocument, hmeets⟩ := Store.truthOn_of_mem_findAll hfind hmem
  refine ⟨hdocument, hmeets _ ?_ (Criterion.isSkipped_of_not_null hnull)⟩
  rw [filter_of_withPaths hpaths]
  exact List.mem_singleton.mpr rfl

/-- Comparisons of integers, and look-ups by integers.

1. The integer of an attribute is compared with an integer of a criterion, with each of several
   and with both bounds of a range, as an integer, if rounding tells them apart.
2. It does so if one of the two has fewer than 54 bits.
3. Integers count as equal if and only if they are rounded to one number.
4. If all identifiers of a store are integers, a look-up by an integer finds a document of which
   the identifier is rounded to the same number. This is the integer looked for if one of the
   two has fewer than 54 bits. -/
theorem integers_compare {s : Scope} {source : Source} {path : String} {j : Int}
    (hattribute : s.attribute? ⟨source, path⟩ = some (.ofInt j)) {k : Catalog}
    (hids : ∀ d ∈ k.store.documents, ∃ j, d.resolve? k.idField = some (.ofInt j)) :
    let truth (v : Value) (op : Operator) : Truth :=
      ((⟨path, v, op⟩ : Criterion).predicate source).eval s
    ((∀ i, Double.TellsApart j i →
        truth (.int i) .equals = .ofBool (j = i) ∧
        truth (.int i) .notEquals = .ofBool (j ≠ i) ∧
        truth (.int i) .greaterThan = .ofBool (j > i) ∧
        truth (.int i) .greaterEquals = .ofBool (j ≥ i) ∧
        truth (.int i) .lessThan = .ofBool (j < i) ∧
        truth (.int i) .lessEquals = .ofBool (j ≤ i)) ∧
      (∀ is : List Int, (∀ i ∈ is, Double.TellsApart j i) →
        truth (.list (is.map .int)) .isIn = .ofBool (j ∈ is)) ∧
      (∀ l u, Double.TellsApart j l → Double.TellsApart j u →
        truth (.list [.int l, .int u]) .between = .ofBool (l ≤ j ∧ j ≤ u)) ∧
      ∀ i, truth (.int i) .equals = .ofBool (Double.ofInt j = .ofInt i)) ∧
    (∀ i j : Int, i.natAbs < 2 ^ 53 ∨ j.natAbs < 2 ^ 53 → Double.TellsApart j i) ∧
    ∀ (i : Int) (paths : List String) (d : Json),
      (k.findById (.int i) paths).outcome = .ok d →
      d ∈ k.store.documents ∧ ∃ j, d.resolve? k.idField = some (.ofInt j) ∧
        Double.ofInt j = .ofInt i ∧ (i.natAbs < 2 ^ 53 ∨ j.natAbs < 2 ^ 53 → j = i) := by
  have hsmall (i j : Int) (h : i.natAbs < 2 ^ 53 ∨ j.natAbs < 2 ^ 53) : Double.TellsApart j i := by
    rcases h with hi | hj
    · exact (Double.tellsApart_of_natAbs_lt hi j).symm
    · exact Double.tellsApart_of_natAbs_lt hj i
  refine ⟨?_, hsmall, fun i paths d hfound => ?_⟩
  · have hint (i : Int) : (Value.int i).toJson = .ofInt i := by rw [Value.toJson]
    have hplain : s.operand? (.plain ⟨source, path⟩) = some (.ofInt j) := hattribute
    simp only [Criterion.predicate, Predicate.eval_compare, Comparison.eval, hplain, hint,
      Value.toList?, Value.toPair?, Option.getD_some, List.map_map, Function.comp_def]
    refine ⟨fun i h => ⟨truthOfEqual_ofInt_of_tellsApart h, ?_, truthOfOrder_ofInt h compare_beq_gt,
      truthOfOrder_ofInt h compare_bne_lt, truthOfOrder_ofInt h compare_beq_lt,
      truthOfOrder_ofInt h compare_bne_gt⟩, fun is h => any_truthOfEqual_ofInt h,
      fun l u hl hu => ?_, fun i => truthOfEqual_ofInt⟩
    · rw [truthOfEqual_ofInt_of_tellsApart h, Truth.not_ofBool, ← decide_not]
    · rw [truthOfOrder_ofInt hl compare_bne_lt, truthOfOrder_ofInt hu compare_bne_gt,
        Truth.and_ofBool, ← Bool.decide_and]
  · obtain ⟨hdocument, htruth⟩ := truthOn_of_findById hfound
    obtain ⟨j, hj⟩ := hids d hdocument
    have hequal : Double.ofInt j = .ofInt i := by
      have hattribute : Scope.operand? ⟨.null, [some d]⟩ (.plain ⟨.join 0, k.idField⟩) =
          some (.ofInt j) := by
        have hbase : Scope.base? ⟨.null, [some d]⟩ (.join 0) = some d := rfl
        simp only [Scope.operand?, Scope.attribute?, hbase, Option.bind_some, hj]
        rfl
      have hvalue : (Value.int i).toJson = .ofInt i := by rw [Value.toJson]
      simp only [Criterion.truthOn, Criterion.predicate, Predicate.eval_compare, Comparison.eval,
        hattribute, hvalue] at htruth
      rwa [truthOfEqual_ofInt, Truth.ofBool_eq_true_iff, decide_eq_true_iff] at htruth
    exact ⟨hdocument, j, hj, hequal, fun h => hsmall i j h hequal⟩

/-- Two posts of which the identifiers are the last two integers up to `2 ^ 53`. -/
def numbered : Catalog where
  store := {
    entity := "posts"
    documents := [.object [("id", .ofInt 9007199254740992)],
      .object [("id", .ofInt 9007199254740991)]] }

/-- The look-up passes the first post over, of which the identifier is greater. -/
theorem integers_compare_numbered :
    ((⟨"id", .int 9007199254740991, .greaterThan⟩ : Criterion).predicate .root).eval
        ⟨.object [("id", .ofInt 9007199254740992)], []⟩ = .true ∧
      ∃ d, (numbered.findById (.int 9007199254740991) []).outcome = .ok d ∧
        d.resolve? "id" = some (.ofInt 9007199254740991) := by
  have hattribute : Scope.attribute? ⟨.object [("id", .ofInt 9007199254740992)], []⟩
      ⟨.root, "id"⟩ = some (.ofInt 9007199254740992) := rfl
  have hids : ∀ d ∈ numbered.store.documents, ∃ j,
      d.resolve? numbered.idField = some (.ofInt j) := by
    intro d hd
    rcases List.mem_cons.mp hd with rfl | hd
    · exact ⟨9007199254740992, rfl⟩
    · obtain rfl := List.mem_singleton.mp hd
      exact ⟨9007199254740991, rfl⟩
  obtain ⟨⟨hrelations, -⟩, hsmall, hlookup⟩ := integers_compare hattribute hids
  obtain ⟨-, -, hgreater, -⟩ := hrelations 9007199254740991 (hsmall _ _ (.inl (by decide)))
  refine ⟨hgreater, ?_⟩
  have hsome : (numbered.findById (.int 9007199254740991) []).outcome.toOption.isSome = true := by
    decide +kernel
  cases hfound : (numbered.findById (.int 9007199254740991) []).outcome with
  | error e =>
    rw [hfound] at hsome
    cases hsome
  | ok d =>
    obtain ⟨-, j, hj, -, heq⟩ := hlookup 9007199254740991 [] d hfound
    obtain rfl := heq (.inl (by decide))
    exact ⟨d, rfl, hj⟩

/-- One post of which the identifier has 54 bits. -/
def distant : Catalog where
  store := {
    entity := "posts"
    documents := [.object [("id", .ofInt 9007199254740993)]] }

/-- The post is found by an identifier that it does not have: its own is rounded to this one. -/
theorem findById_other_identifier :
    (distant.findById (.int 9007199254740992) []).outcome =
      .ok (.object [("id", .ofInt 9007199254740993)]) := by
  have hsome : (distant.findById (.int 9007199254740992) []).outcome.toOption.isSome = true := by
    decide +kernel
  cases hfound : (distant.findById (.int 9007199254740992) []).outcome with
  | error e =>
    rw [hfound] at hsome
    cases hsome
  | ok d => rw [List.mem_singleton.mp (truthOn_of_findById hfound).1]

end Catalog

end Criteria
