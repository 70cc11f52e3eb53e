import Criteria.Json.Record

/-!
# What readers yield

Composite readers call the readers of their parts one level further in, and at no other
depth. So they depend on those alone, and a property of what they yield follows from one of
the parts: each item of a list has been read, and what every field of a record keeps holds of
the record.

## Main statements

- `Reader.list_congr`, `Reader.record_congr`: composite readers depend on their parts one
  level further in
- `Reader.exists_of_mem_list`: each item of a list has been read
- `Reader.record_invariant`: what every field keeps holds of the record
-/

namespace Criteria.Reader

variable {ω α σ : Type} {depth : Nat} {tree : Tree}

theorem outcome_mismatch_ne_ok {what : String} {a : α} :
    (mismatch tree what : Logged ω Mismatch α).outcome ≠ .ok a := by
  intro h
  cases tree <;> cases h

section List

variable {reader reader' : Reader ω α}

theorem items_congr (h : ∀ part, reader depth part = reader' depth part) (trees : List Tree) :
    items reader depth trees = items reader' depth trees := by
  induction trees with
  | nil => rfl
  | cons part rest ih => rw [items, items, h, ih]

theorem list_congr
    (h : ∀ inner, inner + 1 = depth → ∀ part, reader inner part = reader' inner part) :
    list reader depth tree = list reader' depth tree := by
  cases depth with
  | zero => cases tree <;> rfl
  | succ depth =>
    cases tree with
    | array trees => exact items_congr (h depth rfl) trees
    | _ => rfl

theorem exists_of_mem_items {trees : List Tree} {as : List α}
    (h : (items reader depth trees).outcome = .ok as) {a : α} (ha : a ∈ as) :
    ∃ part, (reader depth part).outcome = .ok a := by
  induction trees generalizing as with
  | nil =>
    cases h
    cases ha
  | cons part rest ih =>
    rw [items] at h
    obtain ⟨first, hfirst, h⟩ := Logged.exists_of_outcome_bind_eq_ok h
    obtain ⟨others, hothers, h⟩ := Logged.exists_of_outcome_bind_eq_ok h
    cases h
    rcases List.mem_cons.mp ha with rfl | ha
    · exact ⟨part, hfirst⟩
    · exact ih hothers ha

/-- Each item of a list has been read, one level further in. -/
theorem exists_of_mem_list {as : List α} (h : (list reader depth tree).outcome = .ok as)
    {a : α} (ha : a ∈ as) :
    ∃ inner, inner + 1 = depth ∧ ∃ part, (reader inner part).outcome = .ok a := by
  unfold list at h
  split at h
  · cases h
  · rename_i inner trees
    exact ⟨inner, rfl, exists_of_mem_items h ha⟩
  · exact absurd h outcome_mismatch_ne_ok

end List

section Record

variable {set set' : Nat → Reader ω (σ → σ)} {names : List (List String)}

theorem namedFields_congr (h : ∀ i part, set i depth part = set' i depth part)
    (seen : List Nat) (draft : σ) (fields : List (Option String × Tree)) :
    namedFields names set depth seen draft fields =
      namedFields names set' depth seen draft fields := by
  induction fields generalizing seen draft with
  | nil => rfl
  | cons field rest ih =>
    obtain ⟨key | key, part⟩ := field
    · rfl
    · simp only [namedFields, h, ih]

theorem placedFields_congr (h : ∀ i part, set i depth part = set' i depth part)
    (count i : Nat) (draft : σ) (trees : List Tree) :
    placedFields count set depth i draft trees = placedFields count set' depth i draft trees := by
  induction trees generalizing i draft with
  | nil => rfl
  | cons part rest ih => simp only [placedFields, h, ih]

theorem record_congr {draft : σ}
    (h : ∀ inner, inner + 1 = depth → ∀ i part, set i inner part = set' i inner part) :
    record names set draft depth tree = record names set' draft depth tree := by
  cases depth with
  | zero => cases tree <;> rfl
  | succ depth =>
    have hfields := h depth rfl
    cases tree with
    | array trees => exact placedFields_congr hfields names.length 0 draft trees
    | object fields => exact namedFields_congr hfields [] draft fields
    | _ => rfl

/-- Where nothing may nest, there is no record. -/
theorem exists_record_zero_eq_fail (names : List (List String)) (set : Nat → Reader ω (σ → σ))
    (draft : σ) (tree : Tree) : ∃ e, record names set draft 0 tree = .fail e := by
  cases tree <;> exact ⟨_, rfl⟩

variable {P : σ → Prop}

theorem namedFields_invariant
    (hset : ∀ {i part change}, (set i depth part).outcome = .ok change →
      ∀ {draft}, P draft → P (change draft))
    {seen : List Nat} {draft s : σ} {fields : List (Option String × Tree)} (hdraft : P draft)
    (h : (namedFields names set depth seen draft fields).outcome = .ok s) : P s := by
  induction fields generalizing seen draft with
  | nil =>
    cases h
    exact hdraft
  | cons field rest ih =>
    obtain ⟨key | key, part⟩ := field
    · cases h
    · rw [namedFields] at h
      split at h
      · -- an unknown field changes nothing
        split at h
        · exact ih hdraft h
        · cases h
      · split at h
        · cases h
        · obtain ⟨change, hchange, h⟩ := Logged.exists_of_outcome_bind_eq_ok h
          exact ih (hset hchange hdraft) h

theorem placedFields_invariant
    (hset : ∀ {i part change}, (set i depth part).outcome = .ok change →
      ∀ {draft}, P draft → P (change draft))
    {count i : Nat} {draft s : σ} {trees : List Tree} (hdraft : P draft)
    (h : (placedFields count set depth i draft trees).outcome = .ok s) : P s := by
  induction trees generalizing i draft with
  | nil =>
    cases h
    exact hdraft
  | cons part rest ih =>
    rw [placedFields] at h
    split at h
    · obtain ⟨change, hchange, h⟩ := Logged.exists_of_outcome_bind_eq_ok h
      exact ih (hset hchange hdraft) h
    · cases h

/-- A property of the draft that every field keeps holds of the record. -/
theorem record_invariant
    (hset : ∀ {i inner part change}, inner + 1 = depth →
      (set i inner part).outcome = .ok change → ∀ {draft}, P draft → P (change draft))
    {draft s : σ} (hdraft : P draft)
    (h : (record names set draft depth tree).outcome = .ok s) : P s := by
  unfold record at h
  split at h
  · cases h
  · rename_i inner fields
    exact namedFields_invariant (fun hchange => hset rfl hchange) hdraft h
  · cases h
  · rename_i inner trees
    exact placedFields_invariant (fun hchange => hset rfl hchange) hdraft h
  · exact absurd h outcome_mismatch_ne_ok

end Record

end Criteria.Reader
