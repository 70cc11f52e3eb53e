import Criteria.Proofs.Condition.Filters
import Criteria.Proofs.Json.Parsing

/-!
# Values in documents

A document becomes a value in two ways. A conversion looks at the kind of the document and takes
any of them. A reader tries the kinds of values one after the other and takes the first that fits,
and no kind fits an object. Where there is no object the two agree, and both take back the document
of a value.

## Main definitions

- `Json.HasObject`: documents that are objects or hold one
- `Value.fit?`: the first kind of value that fits a document
- `Value.Storable`: the values that a document can hold
- `Value.written`: the text of a value

## Main statements

- `Value.toOption_outcome_read`: the reader takes the first kind that fits
- `Value.codecs_agree`: the two ways agree, and take back what is written
-/

namespace Criteria

/-- The document is an object, or an array that holds one at some depth. -/
inductive Json.HasObject : Json → Prop
  | here (fields : List (String × Json)) : HasObject (.object fields)
  | within {items : List Json} {item : Json} (hmem : item ∈ items) (h : item.HasObject) :
    HasObject (.array items)

namespace Value

section Fit

def fitNull? : Json → Option Value
  | .null => some .null
  | _ => none

def fitBool? : Json → Option Value
  | .bool b => some (.bool b)
  | _ => none

def fitInt? : Json → Option Value
  | .number n => n.toInt64?.map .int
  | _ => none

def fitFloat? : Json → Option Value
  | .number n => some (.float n.toDouble)
  | _ => none

def fitText? : Json → Option Value
  | .text s => some (.text s)
  | _ => none

/-- The kinds of values without items, in the order in which they are tried. -/
def scalarKinds : List (Json → Option Value) :=
  [fitNull?, fitBool?, fitInt?, fitFloat?, fitText?]

/-- The first kind of value without items that fits a document. -/
def fitScalar? (j : Json) : Option Value :=
  scalarKinds.findSome? fun kind => kind j

mutual

/-- The first kind of value that fits a document. -/
def fit? : Json → Option Value
  | .array items => (fitScalar? (.array items)).or ((fitItems? items).map .list)
  | j => fitScalar? j

def fitItems? : List Json → Option (List Value)
  | [] => some []
  | item :: rest => do
    let v ← fit? item
    let vs ← fitItems? rest
    return v :: vs

end

theorem fit?_array (items : List Json) : fit? (.array items) = (fitItems? items).map .list := by
  rw [fit?]
  rfl

/-- An integer beyond those of 64 bits with a sign fits a floating-point number only. -/
theorem fit?_number (n : Number) : fit? (.number n) = some (ofNumber n) := by
  cases n with
  | double x => rfl
  | int i =>
    by_cases h : i ≤ maxInt64
    · have hfit : fitInt? (.number (.int i)) = some (.int i) := by
        simp [fitInt?, Number.toInt64?, h]
      simp [fit?, fitScalar?, scalarKinds, List.findSome?_cons, fitNull?, fitBool?, hfit,
        ofNumber, h]
    · have hfit : fitInt? (.number (.int i)) = none := by
        simp [fitInt?, Number.toInt64?, h]
      simp [fit?, fitScalar?, scalarKinds, List.findSome?_cons, fitNull?, fitBool?, hfit,
        fitFloat?, Number.toDouble, ofNumber, h]

mutual

/-- Without objects every document fits, as the value that it is converted to. -/
theorem fit?_eq_some_ofJson (j : Json) (h : ¬ j.HasObject) : fit? j = some (ofJson j) := by
  cases j with
  | number n => exact fit?_number n
  | array items =>
    have hitems : ∀ item ∈ items, ¬ item.HasObject := fun item hmem hitem => h (.within hmem hitem)
    rw [fit?_array, fitItems?_eq_some_ofItems items hitems]
    rfl
  | object fields => exact absurd (.here fields) h
  | _ => rfl

theorem fitItems?_eq_some_ofItems (items : List Json) (h : ∀ item ∈ items, ¬ item.HasObject) :
    fitItems? items = some (ofItems items) := by
  match items with
  | [] => rfl
  | item :: rest =>
    obtain ⟨hitem, hrest⟩ := List.forall_mem_cons.mp h
    rw [fitItems?, fit?_eq_some_ofJson item hitem, fitItems?_eq_some_ofItems rest hrest]
    rfl

end

theorem fitItems?_eq_none {items : List Json} {item : Json} (hmem : item ∈ items)
    (h : fit? item = none) : fitItems? items = none := by
  induction items with
  | nil => cases hmem
  | cons first rest ih =>
    rw [fitItems?]
    rcases List.mem_cons.mp hmem with rfl | hmem
    · rw [h]
      rfl
    · rw [ih hmem]
      cases fit? first <;> rfl

/-- An object fits nothing, and so no array around it fits. -/
theorem fit?_eq_none {j : Json} (h : j.HasObject) : fit? j = none := by
  induction h with
  | here fields => rfl
  | within hmem _ ih => rw [fit?_array, fitItems?_eq_none hmem ih, Option.map_none]

end Fit

section Read

variable {ω : Type}

section Outcome

variable {ε α : Type} {x : Except ε α}

theorem eq_ok_of_toOption {a : α} (h : x.toOption = some a) : x = .ok a := by
  cases x with
  | error e => cases h
  | ok b => exact congrArg Except.ok (Option.some_inj.mp h)

theorem exists_eq_error_of_toOption (h : x.toOption = none) : ∃ e, x = .error e := by
  cases x with
  | error e => exact ⟨e, rfl⟩
  | ok b => cases h

end Outcome

mutual

/-- The reader takes the first kind that fits, if the document does not nest too deep. -/
theorem toOption_outcome_read (depth : Nat) (j : Json) :
    (read depth (.ofJson j) : Logged ω Mismatch Value).outcome.toOption =
      if j.depth ≤ depth then fit? j else none := by
  cases j with
  | number n =>
    rw [Tree.ofJson, read, fit?_number]
    exact (if_pos (Nat.zero_le depth)).symm
  | array items =>
    rw [fit?_array, Tree.ofJson, Json.depth]
    cases depth with
    | zero =>
      rw [read]
      exact (if_neg (Nat.not_succ_le_zero _)).symm
    | succ depth =>
      -- the items are read one level further in
      rw [read, Logged.toOption_outcome_bind, toOption_outcome_readItems depth items]
      by_cases h : Json.itemsDepth items ≤ depth
      · rw [if_pos h, if_pos (Nat.succ_le_succ h)]
        cases fitItems? items <;> rfl
      · rw [if_neg h, if_neg (mt Nat.le_of_succ_le_succ h)]
        rfl
  | object fields =>
    have hnone : fit? (.object fields) = none := rfl
    rw [Tree.ofJson, read, hnone, ite_self]
    · rfl
    all_goals simp
  | _ =>
    rw [Tree.ofJson, read]
    exact (if_pos (Nat.zero_le depth)).symm

theorem toOption_outcome_readItems (depth : Nat) (items : List Json) :
    (readItems depth (Tree.ofItems items) : Logged ω Mismatch (List Value)).outcome.toOption =
      if Json.itemsDepth items ≤ depth then fitItems? items else none := by
  match items with
  | [] => exact (if_pos (Nat.zero_le depth)).symm
  | item :: rest =>
    rw [Tree.ofItems, readItems, Logged.toOption_outcome_bind, toOption_outcome_read depth item,
      Json.itemsDepth, fitItems?]
    simp only [Logged.toOption_outcome_bind, toOption_outcome_readItems depth rest, Nat.max_le]
    by_cases hitem : item.depth ≤ depth
    · by_cases hrest : Json.itemsDepth rest ≤ depth
      · rw [if_pos hitem, if_pos hrest, if_pos ⟨hitem, hrest⟩]
        rfl
      · have hboth : ¬ (item.depth ≤ depth ∧ Json.itemsDepth rest ≤ depth) := fun h => hrest h.2
        rw [if_pos hitem, if_neg hrest, if_neg hboth]
        cases fit? item <;> rfl
    · have hboth : ¬ (item.depth ≤ depth ∧ Json.itemsDepth rest ≤ depth) := fun h => hitem h.1
      rw [if_neg hitem, if_neg hboth]
      rfl

end

end Read

section Written

mutual

/-- The integers of the value have 64 bits, and its other numbers are finite. -/
def Storable : Value → Prop
  | .int i => minInt64 ≤ i ∧ i ≤ maxInt64
  | .float x => x.isFinite = true
  | .list items => AllStorable items
  | _ => True

def AllStorable : List Value → Prop
  | [] => True
  | item :: rest => item.Storable ∧ AllStorable rest

end

mutual

theorem ofJson_toJson (v : Value) (h : v.Storable) : ofJson v.toJson = v := by
  cases v with
  | int i =>
    rw [Storable] at h
    rw [toJson, Json.ofInt, ofJson, ofNumber, if_pos h.2]
  | float x =>
    rw [Storable] at h
    rw [toJson, Json.ofDouble, if_pos h, ofJson, ofNumber]
  | list items =>
    rw [Storable] at h
    rw [toJson, ofJson, ofItems_toItems items h]
  | _ => rfl

theorem ofItems_toItems (items : List Value) (h : AllStorable items) :
    ofItems (toItems items) = items := by
  match items with
  | [] => rfl
  | item :: rest =>
    rw [AllStorable] at h
    rw [toItems, ofItems, ofJson_toJson item h.1, ofItems_toItems rest h.2]

end

mutual

/-- No value is written as an object. -/
theorem not_hasObject_toJson (v : Value) : ¬ v.toJson.HasObject := by
  intro h
  cases v with
  | float x =>
    rw [toJson, Json.ofDouble] at h
    split at h <;> cases h
  | list items =>
    rw [toJson] at h
    cases h with
    | within hmem hitem => exact not_hasObject_of_mem_toItems items _ hmem hitem
  | _ => cases h

theorem not_hasObject_of_mem_toItems (items : List Value) :
    ∀ j ∈ toItems items, ¬ j.HasObject := by
  match items with
  | [] => exact fun j hj => absurd hj List.not_mem_nil
  | item :: rest =>
    rw [toItems, List.forall_mem_cons]
    exact ⟨not_hasObject_toJson item, not_hasObject_of_mem_toItems rest⟩

end

mutual

/-- The text of a value, written part by part without a document in between. -/
def written : Value → List Char
  | .null => "null".toList
  | .bool true => "true".toList
  | .bool false => "false".toList
  | .int i => intText i
  | .float x => (Number.double x).text
  | .text s => Json.quote s
  | .list items => '[' :: (writtenItems items ++ [']'])

def writtenItems : List Value → List Char
  | [] => []
  | [item] => item.written
  | item :: rest => item.written ++ ',' :: writtenItems rest

end

mutual

theorem render_toJson (v : Value) : v.toJson.render = v.written := by
  cases v with
  | bool b => cases b <;> rfl
  | float x =>
    rw [toJson, Json.ofDouble, written, Number.text]
    by_cases h : x.isFinite = true
    · rw [if_pos h, if_pos h, Json.render, Number.text, if_pos h]
    · rw [if_neg h, if_neg h]
      rfl
  | list items => rw [toJson, Json.render, written, renderItems_toItems items]
  | _ => rfl

theorem renderItems_toItems (items : List Value) :
    Json.renderItems (toItems items) = writtenItems items := by
  match items with
  | [] => rfl
  | [item] => exact render_toJson item
  | item :: second :: rest =>
    have hrest := renderItems_toItems (second :: rest)
    rw [toItems] at hrest
    rw [toItems, toItems, Json.renderItems, writtenItems, render_toJson item, hrest]
    all_goals simp

end

end Written

/-- Documents and values, for every nesting.

1. The document of a value is converted to the value, and read as the value.
2. A document without objects is read as the value that it is converted to.
3. An integer beyond those of 64 bits with a sign becomes a floating-point number in both.
4. A document with an object is not read.
5. What is read, at every limit of the nesting, is the first kind of value that fits.
6. The text of a value is that of its document, and is read as the value if its numbers read
   back. -/
theorem codecs_agree {ω : Type} :
    (∀ v : Value, v.Storable → ofJson v.toJson = v ∧ ∀ {depth}, v.toJson.depth ≤ depth →
      (reader depth (.ofJson v.toJson) : Logged ω Mismatch Value).outcome = .ok v) ∧
    (∀ {j : Json}, ¬ j.HasObject → ∀ {depth}, j.depth ≤ depth →
      (reader depth (.ofJson j) : Logged ω Mismatch Value).outcome = .ok (ofJson j)) ∧
    (∀ {i : Int}, maxInt64 < i → ofJson (.number (.int i)) = .float (.ofInt i) ∧ ∀ depth,
      (reader depth (.ofJson (.number (.int i))) : Logged ω Mismatch Value).outcome =
        .ok (.float (.ofInt i))) ∧
    (∀ {j : Json}, j.HasObject → ∀ depth, ∃ e,
      (reader depth (.ofJson j) : Logged ω Mismatch Value).outcome = .error e) ∧
    (∀ (j : Json) (depth : Nat),
      (reader depth (.ofJson j) : Logged ω Mismatch Value).outcome.toOption =
        if j.depth ≤ depth then fit? j else none) ∧
    ∀ v : Value, v.toJson.compact = String.ofList v.written ∧
      (v.Readable → v.toJson.depth ≤ maxDepth →
        (Reader.readText (ω := ω) reader (String.ofList v.written)).outcome = .ok v) := by
  have hread (j : Json) (depth : Nat) :
      (reader depth (.ofJson j) : Logged ω Mismatch Value).outcome.toOption =
        if j.depth ≤ depth then fit? j else none :=
    toOption_outcome_read depth j
  have hfits {j : Json} (hj : ¬ j.HasObject) {depth : Nat} (hdepth : j.depth ≤ depth) :
      (reader depth (.ofJson j) : Logged ω Mismatch Value).outcome = .ok (ofJson j) := by
    apply eq_ok_of_toOption
    rw [hread, if_pos hdepth, fit?_eq_some_ofJson j hj]
  refine ⟨fun v hv => ⟨ofJson_toJson v hv, fun hdepth => ?_⟩, hfits, fun {i} hi => ?_,
    fun {j} hj depth => ?_, hread, fun v => ?_⟩
  · rw [hfits v.not_hasObject_toJson hdepth, ofJson_toJson v hv]
  · have hfloat : ofJson (.number (.int i)) = .float (.ofInt i) := if_neg (not_le.mpr hi)
    have hscalar : ¬ (Json.number (.int i)).HasObject := by
      intro h
      cases h
    refine ⟨hfloat, fun depth => ?_⟩
    rw [hfits hscalar (Nat.zero_le depth), hfloat]
  · have hnone := hread j depth
    rw [fit?_eq_none hj, ite_self] at hnone
    exact exists_eq_error_of_toOption hnone
  · have hcompact : v.toJson.compact = String.ofList v.written := by
      rw [Json.compact, render_toJson]
    refine ⟨hcompact, fun hv hdepth => ?_⟩
    rw [← hcompact]
    exact Reader.outcome_readText (legible_toJson v hv)
      (reads_toJson v hv (Json.rearranged_refl _) hdepth)

/-- The integer one next to the floating-point number one, with its rank, and a list with the
bounds of the integers. -/
def mixedNumbers : Value :=
  .list [.int 1, .float (.ofRank false 0x3FF0000000000000), .list [.int minInt64, .int maxInt64]]

/-- A number one beyond the signed integers, next to an object. -/
def beyondAndObject : Json :=
  .array [.number (.int (maxInt64 + 1)), .array [.object []]]

theorem codecs_agree_mixed :
    ofJson mixedNumbers.toJson = mixedNumbers ∧
      (reader 2 (.ofJson mixedNumbers.toJson) : Logged Empty Mismatch Value).outcome =
        .ok mixedNumbers ∧
      ofJson (.number (.int (maxInt64 + 1))) = .float (.ofInt (maxInt64 + 1)) ∧
      (∃ e, (reader 3 (.ofJson beyondAndObject) : Logged Empty Mismatch Value).outcome =
        .error e) ∧
      (Reader.readText (ω := Empty) reader (String.ofList (Value.text "1").written)).outcome =
        .ok (.text "1") := by
  have hstorable : mixedNumbers.Storable := by
    simp only [mixedNumbers, Storable, AllStorable, and_true]
    decide
  have hobject : beyondAndObject.HasObject :=
    .within (List.mem_cons_of_mem _ List.mem_cons_self) (.within List.mem_cons_self (.here []))
  obtain ⟨hwritten, -, hbeyond, hrefused, -, htext⟩ := codecs_agree (ω := Empty)
  obtain ⟨hconverted, hread⟩ := hwritten mixedNumbers hstorable
  exact ⟨hconverted, hread (by decide), (hbeyond (by decide)).1, hrefused hobject 3,
    (htext (.text "1")).2 trivial (by decide)⟩

end Value

end Criteria
