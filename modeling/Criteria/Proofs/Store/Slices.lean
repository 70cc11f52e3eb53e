import Criteria.Proofs.Store.Pages

/-!
# Pages and the slices they describe

The number and the size on a page describe a slice of all rows: as many rows as the size says,
from the product of the two on. Every page that is requested with a size of one or more has just
these rows. A size of zero counts as one on the page, but the offset of the request is computed
before that and is zero, so all pages of such a request have the first row.

## Main definitions

- `Page.IsSliceOf`: a page has the rows that its own number and size describe

## Main statements

- `Page.isSliceOf_cut_iff`: the requests that are answered with the slice they describe
- `PageLimits.isSliceOf_of_resolve`: the limits let no other requests through
- `Page.describes_slice`: a page, its consecutive pages, and the slices they describe
-/

namespace Criteria

/-- Two places of a list have the same row, or neither has one. -/
theorem take_one_eq_take_one_drop_iff {α : Type} {rows : List α} (n : Nat) :
    rows.take 1 = (rows.drop n).take 1 ↔ rows[n]? = rows[0]? := by
  rw [List.take_one, List.take_one, List.head?_drop, List.head?_eq_getElem?]
  constructor
  · intro h
    simpa using (congrArg List.head? h).symm
  · intro h
    rw [h]

namespace Page

variable {α : Type}

/-- The page has the rows from its own number times its own size on, as many as its own size, up
to the end of all rows. -/
def IsSliceOf (p : Page α) (rows : List α) : Prop :=
  p.content = rows.extract (p.number * p.size) (p.number * p.size + p.size)

instance [DecidableEq α] (p : Page α) (rows : List α) : Decidable (p.IsSliceOf rows) :=
  inferInstanceAs (Decidable (p.content = _))

variable {rows : List α} {r : PageRequest}

theorem isSliceOf_iff (p : Page α) :
    p.IsSliceOf rows ↔ p.content = (rows.drop (p.number * p.size)).take p.size := by
  rw [IsSliceOf, List.extract_eq_take_drop, Nat.add_sub_cancel_left]

theorem isSliceOf_cut (hlength : rows.length ≤ maxIndex) (hsize : 1 ≤ r.size) :
    (cut rows r).IsSliceOf rows := by
  have hmax : (cut rows r).size = r.size := Nat.max_eq_left hsize
  rw [isSliceOf_iff, hmax]
  exact content_cut hlength hsize

/-- With a size of zero every page has the first row, whatever its number. -/
theorem content_cut_of_size_eq_zero (hsize : r.size = 0) :
    (cut rows r).content = rows.take 1 := by
  have hoffset : r.offset = 0 := by
    rw [PageRequest.offset, hsize, Nat.mul_zero, Nat.zero_min]
  simp only [cut, hoffset, hsize, List.drop_zero, Nat.zero_max]

/-- A page has the slice that it describes, unless it is requested with a size of zero and there
is another row, or none, at the place of its number than at the first. -/
theorem isSliceOf_cut_iff (hlength : rows.length ≤ maxIndex) :
    (cut rows r).IsSliceOf rows ↔ (r.size = 0 → rows[r.number]? = rows[0]?) := by
  rcases Nat.eq_zero_or_pos r.size with hzero | hpos
  · have hone : (cut rows r).size = 1 := by
      simp only [cut, hzero, Nat.zero_max]
    have hnumber : (cut rows r).number = r.number := rfl
    rw [isSliceOf_iff, hone, hnumber, Nat.mul_one, content_cut_of_size_eq_zero hzero,
      take_one_eq_take_one_drop_iff]
    exact ⟨fun h _ => h, fun h => h hzero⟩
  · have hne : r.size ≠ 0 := hpos.ne'
    exact ⟨fun _ hzero => absurd hzero hne, fun _ => isSliceOf_cut hlength hpos⟩

end Page

namespace PageLimits

variable {limits : PageLimits} {request : Option PageRequest} {r : PageRequest}

/-- A request that the limits let through has a size of one or more, or is for the first page. -/
theorem size_pos_or_number_eq_zero (h : limits.resolve request = .ok r) :
    1 ≤ r.size ∨ r.number = 0 := by
  cases request with
  | none =>
    cases h
    exact .inr rfl
  | some asked =>
    by_cases hzero : asked.size = 0
    · rw [resolve, if_pos hzero] at h
      cases h
    · by_cases hgreat : limits.maxSize < asked.size
      · rw [resolve, if_neg hzero, if_pos hgreat] at h
        cases h
      · rw [resolve, if_neg hzero, if_neg hgreat] at h
        cases h
        exact .inl (Nat.pos_of_ne_zero hzero)

/-- Even the default request, whose size is not checked, is answered with the slice that its page
describes, because it is for the first page. -/
theorem isSliceOf_of_resolve {α : Type} {rows : List α} (hlength : rows.length ≤ maxIndex)
    (h : limits.resolve request = .ok r) : (Page.cut rows r).IsSliceOf rows := by
  rw [Page.isSliceOf_cut_iff hlength]
  intro hzero
  rcases size_pos_or_number_eq_zero h with hpos | hfirst
  · omega
  · rw [hfirst]

end PageLimits

namespace Page

/-- What a page says about its rows.

1. It says the number of the request, and the size of the request, or one in place of zero.
2. It has the slice of the rows that these two describe, exactly if the size of the request is
   not zero, or the same row is at the place of the number as at the first, or no row at both.
3. With a size of one or more, consecutive pages are one slice when they are put together, so no
   row comes twice and none is left out.
4. With a size of zero, every page has the first row.
5. Every request that some limits let through is answered with the slice that its page describes.

The number of rows has to be a word, like every number of rows that is reported. -/
theorem describes_slice {α : Type} (rows : List α) (r : PageRequest)
    (hlength : rows.length ≤ maxIndex) :
    (cut rows r).number = r.number ∧ (cut rows r).size = max r.size 1 ∧
    ((cut rows r).IsSliceOf rows ↔ (r.size = 0 → rows[r.number]? = rows[0]?)) ∧
    (1 ≤ r.size → ∀ first count,
      ((List.range count).flatMap fun k => (cut rows { r with number := first + k }).content) =
        rows.extract (first * r.size) ((first + count) * r.size)) ∧
    (r.size = 0 → ∀ number, (cut rows { r with number }).content = rows.take 1) ∧
    ∀ {limits : PageLimits} {request}, limits.resolve request = .ok r →
      (cut rows r).IsSliceOf rows := by
  refine ⟨rfl, rfl, isSliceOf_cut_iff hlength, fun hsize first count => ?_, fun hsize number => ?_,
    PageLimits.isSliceOf_of_resolve hlength⟩
  · rw [flatMap_content_cut_from hlength hsize, List.extract_eq_take_drop, Nat.add_mul,
      Nat.add_sub_cancel_left]
  · exact content_cut_of_size_eq_zero (r := { r with number }) hsize

/-- Twenty-five numbers on pages of ten, of the greatest size, and of size zero. -/
theorem describes_slice_numbers :
    (List.range 25).length ≤ maxIndex ∧
      (cut (List.range 25) (.ofSize 2 10)).content = [20, 21, 22, 23, 24] ∧
      ((List.range 2).flatMap fun k => (cut (List.range 25) (.ofSize (1 + k) 10)).content) =
        (List.range 25).drop 10 ∧
      (cut (List.range 25) (.ofSize maxIndex maxIndex)).content = [] ∧
      (cut (List.range 25) (.ofSize maxIndex 0)).content = [0] := by
  have hlength : (List.range 25).length ≤ maxIndex := by decide
  obtain ⟨-, -, -, hconsecutive, -, hresolved⟩ :=
    describes_slice (List.range 25) (.ofSize 2 10) hlength
  obtain ⟨-, -, hgreatest, -⟩ :=
    describes_slice (List.range 25) (.ofSize maxIndex maxIndex) hlength
  obtain ⟨-, -, -, -, hzero, -⟩ := describes_slice (List.range 25) (.ofSize maxIndex 0) hlength
  have hresolve : PageLimits.resolve {} (some (.ofSize 2 10)) = .ok (.ofSize 2 10) := rfl
  have hslice : (cut (List.range 25) (.ofSize 2 10)).IsSliceOf (List.range 25) :=
    hresolved hresolve
  have hpages := hconsecutive (by decide) 1 2
  have hbeyond : (cut (List.range 25) (.ofSize maxIndex maxIndex)).IsSliceOf (List.range 25) :=
    hgreatest.mpr fun h => absurd h (by decide)
  exact ⟨hlength, hslice.trans (by decide), hpages.trans (by decide), hbeyond.trans (by decide),
    hzero rfl maxIndex⟩

/-- The second page of size zero says that it is of size one, and has the first row again. -/
theorem second_page_repeats_first :
    [0, 1, 2].length ≤ maxIndex ∧
      (cut [0, 1, 2] (.ofSize 1 0)).number = 1 ∧ (cut [0, 1, 2] (.ofSize 1 0)).size = 1 ∧
      (cut [0, 1, 2] (.ofSize 1 0)).content = (cut [0, 1, 2] (.ofSize 0 0)).content ∧
      ¬ (cut [0, 1, 2] (.ofSize 1 0)).IsSliceOf [0, 1, 2] := by
  decide

end Page

end Criteria
