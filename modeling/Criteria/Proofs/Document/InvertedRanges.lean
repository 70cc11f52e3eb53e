import Criteria.Proofs.Criterion.Expansions
import Criteria.Proofs.Document.SortOrder
import Criteria.Proofs.Store.Narrowing

/-!
# Ranges that end before they start

A range whose lower bound is greater than its upper bound holds no boolean and no number. It may
hold texts: two texts are compared in time only if both denote points in time, and so each of them
may be compared by its characters with a third that denotes none. Such a text stands between two
points in time that are in the other order than their characters, and then the three texts are
ordered in a circle.

## Main definitions

- `Interposed`: a text between two points in time that are not in the order of their characters

## Main statements

- `Json.compareTexts_inverted_iff`: the texts that an inverted range of texts holds
- `Comparison.between_inverted_iff`: what an inverted range holds
-/

namespace Criteria

/-- A text that denotes no point in time stands by its characters between two that do, of which the
first in characters is not the earlier one in time. -/
structure Interposed (first plain last : String) : Prop where
  after : compare first plain = .lt
  before : compare plain last = .lt
  timeless : Timestamp.ofText? plain = none
  times : ∃ s t, Timestamp.ofText? first = some s ∧ Timestamp.ofText? last = some t ∧
    s.cmp t ≠ .lt

/-- In an order, nothing is between a bound and a smaller one. -/
theorem not_between_of_gt {α : Type} {cmp : α → α → Ordering} [Std.TransCmp cmp] {a x b : α}
    (h : cmp a b = .gt) : ¬ (cmp x a ≠ .lt ∧ cmp x b ≠ .gt) := by
  rintro ⟨hlower, hupper⟩
  have hbelow : cmp x a = .lt :=
    Std.TransCmp.lt_of_isLE_of_lt (Ordering.isLE_iff_ne_gt.mpr hupper) (Std.OrientedCmp.lt_of_gt h)
  exact hlower hbelow

theorem Double.exists_ranks_of_compare? {x y : Double} {order : Ordering}
    (h : x.compare? y = some order) :
    ∃ i j, x.signedRank? = some i ∧ y.signedRank? = some j ∧ compare i j = order := by
  obtain ⟨i, hi, h⟩ := Option.bind_eq_some_iff.mp h
  obtain ⟨j, hj, h⟩ := Option.bind_eq_some_iff.mp h
  exact ⟨i, j, hi, hj, Option.some.inj h⟩

namespace Json

section Texts

variable {a b x : String} {s t : Timestamp}

theorem compareTexts_of_times (ha : Timestamp.ofText? a = some s)
    (hb : Timestamp.ofText? b = some t) : compareTexts a b = s.cmp t := by
  simp only [compareTexts, ha, hb]

theorem compareTexts_of_timeless (h : Timestamp.ofText? a = none ∨ Timestamp.ofText? b = none) :
    compareTexts a b = compare a b := by
  unfold compareTexts
  rcases h with h | h
  · rw [h]
  · rw [h]
    cases Timestamp.ofText? a <;> rfl

theorem ne_of_timeless (ha : Timestamp.ofText? a = some s) (hb : Timestamp.ofText? b = none) :
    a ≠ b := by
  rintro rfl
  rw [ha] at hb
  cases hb

theorem compare_eq_lt_of_ne_gt (h : compare a b ≠ .gt) (hne : a ≠ b) : compare a b = .lt := by
  cases hab : compare a b with
  | lt => rfl
  | eq => exact absurd (Std.LawfulEqCmp.eq_of_compare hab) hne
  | gt => exact absurd hab h

theorem compare_eq_lt_of_ne_lt (h : compare b a ≠ .lt) (hne : a ≠ b) : compare a b = .lt :=
  compare_eq_lt_of_ne_gt (fun hgt => h (Std.OrientedCmp.lt_of_gt hgt)) hne

/-- What texts an inverted range of texts holds. Two of the three texts denote points in time and
are compared as such, and the third is compared with both by its characters. -/
theorem compareTexts_inverted_iff (h : compareTexts a b = .gt) :
    compareTexts x a ≠ .lt ∧ compareTexts x b ≠ .gt ↔
      Interposed a x b ∨ Interposed x b a ∨ Interposed b a x := by
  constructor
  · rintro ⟨hlower, hupper⟩
    -- texts that are all compared in one way are in an order
    have hcharacters (hab : Timestamp.ofText? a = none ∨ Timestamp.ofText? b = none)
        (hxa : Timestamp.ofText? x = none ∨ Timestamp.ofText? a = none)
        (hxb : Timestamp.ofText? x = none ∨ Timestamp.ofText? b = none) : False := by
      rw [compareTexts_of_timeless hab] at h
      rw [compareTexts_of_timeless hxa] at hlower
      rw [compareTexts_of_timeless hxb] at hupper
      exact not_between_of_gt h ⟨hlower, hupper⟩
    cases ha : Timestamp.ofText? a <;> cases hx : Timestamp.ofText? x <;>
      cases hb : Timestamp.ofText? b
    case none.none.none | none.none.some => exact (hcharacters (.inl ha) (.inl hx) (.inl hx)).elim
    case none.some.none => exact (hcharacters (.inl ha) (.inr ha) (.inr hb)).elim
    case some.none.none => exact (hcharacters (.inr hb) (.inl hx) (.inl hx)).elim
    case some.some.some s t u =>
      rw [compareTexts_of_times ha hb] at h
      rw [compareTexts_of_times hx ha] at hlower
      rw [compareTexts_of_times hx hb] at hupper
      exact absurd ⟨hlower, hupper⟩ (not_between_of_gt h)
    case some.none.some s u =>
      rw [compareTexts_of_times ha hb] at h
      rw [compareTexts_of_timeless (.inl hx)] at hlower hupper
      exact .inl ⟨compare_eq_lt_of_ne_lt hlower (ne_of_timeless ha hx),
        compare_eq_lt_of_ne_gt hupper (ne_of_timeless hb hx).symm, hx, s, u, ha, hb, by simp [h]⟩
    case some.some.none s t =>
      rw [compareTexts_of_timeless (.inr hb)] at h hupper
      rw [compareTexts_of_times hx ha] at hlower
      exact .inr (.inl ⟨compare_eq_lt_of_ne_gt hupper (ne_of_timeless hx hb),
        Std.OrientedCmp.lt_of_gt h, hb, t, s, hx, ha, hlower⟩)
    case none.some.some t u =>
      rw [compareTexts_of_timeless (.inl ha)] at h
      rw [compareTexts_of_timeless (.inr ha)] at hlower
      rw [compareTexts_of_times hx hb] at hupper
      exact .inr (.inr ⟨Std.OrientedCmp.lt_of_gt h,
        compare_eq_lt_of_ne_lt hlower (ne_of_timeless hx ha).symm, ha, u, t, hb, hx,
        fun hlt => hupper (Std.OrientedCmp.gt_of_lt hlt)⟩)
  · rintro (⟨hax, hxb, hx, -⟩ | ⟨hxb, -, hb, t, s, hx, ha, hnotBefore⟩ |
      ⟨-, hax, ha, u, t, hb, hx, hnotBefore⟩)
    · rw [compareTexts_of_timeless (.inl hx), compareTexts_of_timeless (.inl hx), hxb,
        Std.OrientedCmp.gt_of_lt hax]
      exact ⟨nofun, nofun⟩
    · rw [compareTexts_of_times hx ha, compareTexts_of_timeless (.inr hb), hxb]
      exact ⟨hnotBefore, nofun⟩
    · rw [compareTexts_of_timeless (.inr ha), compareTexts_of_times hx hb,
        Std.OrientedCmp.gt_of_lt hax]
      exact ⟨nofun, fun hgt => hnotBefore (Std.OrientedCmp.lt_of_gt hgt)⟩

end Texts

/-- An inverted range holds no values but texts. -/
theorem compare?_inverted_iff {lower x upper : Json} (h : lower.compare? upper = some .gt) :
    (∃ order, x.compare? lower = some order ∧ order ≠ .lt) ∧
        (∃ order, x.compare? upper = some order ∧ order ≠ .gt) ↔
      ∃ a t b, lower = .text a ∧ x = .text t ∧ upper = .text b ∧
        (Interposed a t b ∨ Interposed t b a ∨ Interposed b a t) := by
  constructor
  · rintro ⟨⟨order, hlower, hlt⟩, order', hupper, hgt⟩
    cases lower <;> cases upper <;> try cases h
    all_goals cases x <;> try cases (show none = some order from hlower)
    case mp.bool.bool.bool a b t =>
      obtain rfl := Option.some.inj hlower
      obtain rfl := Option.some.inj hupper
      exact absurd ⟨hlt, hgt⟩ (not_between_of_gt (Option.some.inj h))
    case mp.number.number.number a b t =>
      -- numbers are compared by their ranks
      obtain ⟨i, j, hi, hj, hij⟩ := Double.exists_ranks_of_compare? h
      obtain ⟨k, i', hk, hi', rfl⟩ := Double.exists_ranks_of_compare? hlower
      obtain ⟨k', j', hk', hj', rfl⟩ := Double.exists_ranks_of_compare? hupper
      obtain rfl := Option.some.inj (hi.symm.trans hi')
      obtain rfl := Option.some.inj (hj.symm.trans hj')
      obtain rfl := Option.some.inj (hk.symm.trans hk')
      exact absurd ⟨hlt, hgt⟩ (not_between_of_gt hij)
    case mp.text.text.text a b t =>
      obtain rfl := Option.some.inj hlower
      obtain rfl := Option.some.inj hupper
      exact ⟨a, t, b, rfl, rfl, rfl,
        (compareTexts_inverted_iff (Option.some.inj h)).mp ⟨hlt, hgt⟩⟩
  · rintro ⟨a, t, b, rfl, rfl, rfl, hinterposed⟩
    obtain ⟨hlower, hupper⟩ := (compareTexts_inverted_iff (Option.some.inj h)).mpr hinterposed
    exact ⟨⟨_, rfl, hlower⟩, _, rfl, hupper⟩

end Json

/-- An order relation holds where the values are in an order that it accepts. -/
theorem truthOfOrder_eq_true_iff {j bound : Json} {accept : Ordering → Bool} :
    truthOfOrder (some j) bound accept = .true ↔
      ∃ order, j.compare? bound = some order ∧ accept order = true := by
  rw [truthOfOrder, Option.bind_some]
  cases j.compare? bound with
  | none => simp
  | some order => simp [Truth.ofBool_eq_true_iff]

theorem Value.toJson_eq_text_iff {v : Value} {a : String} : v.toJson = .text a ↔ v = .text a := by
  cases v with
  | float x =>
    rw [toJson, Json.ofDouble]
    split <;> simp
  | _ => simp [toJson, Json.ofInt]

namespace Comparison

variable {s : Scope} {o : Operand} {lower upper : Value}

theorem between_eq_true_iff : (Comparison.between o lower upper).eval s = .true ↔
    ∃ x, s.operand? o = some x ∧
      (∃ order, x.compare? lower.toJson = some order ∧ order ≠ .lt) ∧
      ∃ order, x.compare? upper.toJson = some order ∧ order ≠ .gt := by
  rw [eval, Truth.and_eq_true_iff]
  cases s.operand? o with
  | none =>
    refine iff_of_false ?_ ?_
    · rintro ⟨h, -⟩
      cases h
    · rintro ⟨x, hx, -⟩
      cases hx
  | some x =>
    simp only [truthOfOrder_eq_true_iff, bne_iff_ne, Option.some_inj, exists_eq_left']

/-- What an inverted range holds. The comparison is true of a text alone, and only if both bounds
are texts: two of the three denote points in time, the third stands between these by its characters,
and of the two the first in characters is not the earlier one in time. -/
theorem between_inverted_iff (s : Scope) (o : Operand) (lower upper : Value)
    (h : lower.toJson.compare? upper.toJson = some .gt) :
    (Comparison.between o lower upper).eval s = .true ↔
      ∃ a t b, lower = .text a ∧ s.operand? o = some (.text t) ∧ upper = .text b ∧
        (Interposed a t b ∨ Interposed t b a ∨ Interposed b a t) := by
  simp only [between_eq_true_iff, Json.compare?_inverted_iff h, Value.toJson_eq_text_iff]
  constructor
  · rintro ⟨x, hx, a, t, b, hlower, rfl, hupper, hinterposed⟩
    exact ⟨a, t, b, hlower, hx, hupper, hinterposed⟩
  · rintro ⟨a, t, b, hlower, hx, hupper, hinterposed⟩
    exact ⟨_, hx, a, t, b, hlower, rfl, hupper, hinterposed⟩

/-- A document that was changed at some time. -/
def changedAt (time : String) : Scope :=
  ⟨.object [("changed", .text time)], []⟩

/-- The time of the document is later than the lower bound, but stands before it by its characters,
and the upper bound is no time and stands between the two. A range of numbers holds nothing. -/
theorem between_inverted_iff_changed :
    let changed := Operand.plain ⟨.root, "changed"⟩
    let late := "2024-01-01T23:00:00-05:00"
    (Value.text "2024-01-02").toJson.compare? (Value.text "2024-01-01Tnoon").toJson = some .gt ∧
      (Comparison.between changed (.text "2024-01-02") (.text "2024-01-01Tnoon")).eval
        (changedAt late) = .true ∧
      (Value.int 5).toJson.compare? (Value.int 3).toJson = some .gt ∧
      (Comparison.between changed (.int 5) (.int 3)).eval (changedAt late) ≠ .true := by
  intro changed late
  have htexts : (Value.text "2024-01-02").toJson.compare? (Value.text "2024-01-01Tnoon").toJson =
      some .gt := by decide +kernel
  have hnumbers : (Value.int 5).toJson.compare? (Value.int 3).toJson = some .gt := by
    decide +kernel
  have hinterposed : Interposed late "2024-01-01Tnoon" "2024-01-02" :=
    ⟨by decide +kernel, by decide +kernel, by decide +kernel, ⟨⟨2024, 1, 2⟩, 4, 0, 0, 0⟩,
      ⟨⟨2024, 1, 2⟩, 0, 0, 0, 0⟩, by decide +kernel, by decide +kernel, by decide +kernel⟩
  refine ⟨htexts, ?_, hnumbers, fun htrue => ?_⟩
  · exact (between_inverted_iff (changedAt late) changed _ _ htexts).mpr
      ⟨_, _, _, rfl, rfl, rfl, .inr (.inl hinterposed)⟩
  · obtain ⟨a, -, -, ha, -⟩ := (between_inverted_iff (changedAt late) changed _ _ hnumbers).mp htrue
    cases ha

/-- The lower bound is later in time than the upper one, but stands before it by its characters, and
a text that denotes no time stands between them. -/
theorem between_inverted_holds :
    (Value.text "2024-01-01T23:00:00-05:00").toJson.compare? (Value.text "2024-01-02").toJson =
        some .gt ∧
      (Comparison.between (.plain ⟨.root, "changed"⟩) (.text "2024-01-01T23:00:00-05:00")
        (.text "2024-01-02")).eval (changedAt "2024-01-01Tnoon") = .true := by
  decide +kernel

end Comparison

end Criteria
