import Criteria.Proofs.Store.Agreement
import Mathlib.Algebra.Order.Floor.Div

/-!
# Pages partition an answer

The pages of one size, put together in their order, are the whole answer: no row is lost at the
border of two pages and none comes twice. Every page is cut out of an answer that is computed
and sorted anew, which makes no difference since both are functions of the query.

## Main statements

- `Page.content_cut`: a page holds the rows from its own offset on, although offsets have an
  upper bound
- `Page.flatMap_content_cut_from`, `Page.flatMap_content_cut`: consecutive pages, and all
  pages, put together
- `Store.pages_partition`: the pages of an answer
-/

namespace Criteria

/-- The chunks of one size, put together, are the start of a list. -/
theorem flatMap_range_drop_take {α : Type} (rows : List α) (size count : Nat) :
    ((List.range count).flatMap fun p => (rows.drop (p * size)).take size) =
      rows.take (count * size) := by
  induction count with
  | zero => simp
  | succ count ih =>
    rw [List.range_succ, List.flatMap_append, ih, Nat.succ_mul, List.take_add]
    simp

namespace Page

variable {α : Type} {rows : List α} {r : PageRequest}

/-- An offset beyond the greatest index is cut back to it, and there are no rows from there
on either. -/
theorem content_cut_eq (hlength : rows.length ≤ maxIndex) :
    (cut rows r).content = (rows.drop (r.number * r.size)).take (max r.size 1) := by
  simp only [cut, PageRequest.offset]
  by_cases hoffset : r.number * r.size ≤ maxIndex
  · rw [Nat.min_eq_left hoffset]
  · have hbeyond : maxIndex ≤ r.number * r.size := by omega
    rw [Nat.min_eq_right hbeyond, List.drop_eq_nil_of_le hlength,
      List.drop_eq_nil_of_le (hlength.trans hbeyond)]

theorem content_cut (hlength : rows.length ≤ maxIndex) (hsize : 1 ≤ r.size) :
    (cut rows r).content = (rows.drop (r.number * r.size)).take r.size := by
  rw [content_cut_eq hlength, Nat.max_eq_left hsize]

theorem totalPages_cut (hsize : 1 ≤ r.size) :
    (cut rows r).totalPages = rows.length ⌈/⌉ r.size := by
  have hmax : max r.size 1 = r.size := by omega
  simp only [cut, hmax, Nat.ceilDiv_eq_add_pred_div]

/-- A page comes before the end of all pages if and only if it starts before the last row. -/
theorem lt_ceilDiv_iff {length size p : Nat} (hsize : 1 ≤ size) :
    p < length ⌈/⌉ size ↔ p * size < length := by
  rw [← not_le, ceilDiv_le_iff_le_mul hsize, not_le, Nat.mul_comm]

/-- There are no more pages than rows, so that their number is an index as well. -/
theorem totalPages_cut_le (hlength : rows.length ≤ maxIndex) (hsize : 1 ≤ r.size) :
    (cut rows r).totalPages ≤ maxIndex := by
  rw [totalPages_cut hsize, ceilDiv_le_iff_le_mul hsize]
  exact hlength.trans (Nat.le_mul_of_pos_left maxIndex hsize)

theorem isLast_cut_iff (hlength : rows.length ≤ maxIndex) (hsize : 1 ≤ r.size) :
    (cut rows r).isLast = true ↔ rows.length ⌈/⌉ r.size ≤ r.number + 1 := by
  have htotal := totalPages_cut_le hlength hsize
  have hnumber : (cut rows r).number = r.number := rfl
  rw [totalPages_cut hsize] at htotal
  rw [isLast, decide_eq_true_iff, hnumber, totalPages_cut hsize]
  omega

theorem content_cut_eq_nil_iff (hlength : rows.length ≤ maxIndex) (hsize : 1 ≤ r.size) :
    (cut rows r).content = [] ↔ rows.length ⌈/⌉ r.size ≤ r.number := by
  have hne : r.size ≠ 0 := by omega
  rw [content_cut hlength hsize, List.take_eq_nil_iff, or_iff_right hne, List.drop_eq_nil_iff,
    ← not_lt, ← not_lt, lt_ceilDiv_iff hsize]

/-- The length of a page, which is full unless the rows end within it. -/
theorem length_content_cut (hlength : rows.length ≤ maxIndex) (hsize : 1 ≤ r.size) :
    (cut rows r).content.length = min r.size (rows.length - r.number * r.size) := by
  rw [content_cut hlength hsize, List.length_take, List.length_drop]

/-- Consecutive pages, put together in their order. -/
theorem flatMap_content_cut_from (hlength : rows.length ≤ maxIndex) (hsize : 1 ≤ r.size)
    (first count : Nat) :
    ((List.range count).flatMap fun k => (cut rows { r with number := first + k }).content) =
      (rows.drop (first * r.size)).take (count * r.size) := by
  have hpage (k : Nat) : (cut rows { r with number := first + k }).content =
      ((rows.drop (first * r.size)).drop (k * r.size)).take r.size := by
    rw [content_cut (r := { r with number := first + k }) hlength hsize, List.drop_drop,
      Nat.add_mul]
  simp only [hpage]
  exact flatMap_range_drop_take _ _ _

/-- All pages, put together in their order. -/
theorem flatMap_content_cut (hlength : rows.length ≤ maxIndex) (hsize : 1 ≤ r.size) :
    ((List.range (rows.length ⌈/⌉ r.size)).flatMap fun p =>
      (cut rows { r with number := p }).content) = rows := by
  have hall : rows.length ≤ (rows.length ⌈/⌉ r.size) * r.size := by
    rw [Nat.mul_comm, ← ceilDiv_le_iff_le_mul hsize]
  have hpages := flatMap_content_cut_from hlength hsize 0 (rows.length ⌈/⌉ r.size)
  simp only [Nat.zero_add, Nat.zero_mul, List.drop_zero] at hpages
  rw [hpages, List.take_of_length_le hall]

end Page

namespace Store

/-- The pages of one size partition the sorted answer.

Every page number has an answer. The pages, as many as the rows take, are the sorted rows when
they are put together. All but the last of them are full, and the last is not empty. A page has
a next one if and only if that one has rows, and a page beyond the last is empty and says that
it is the last, whatever its number. The number of rows has to be a word, like every number of
rows that is reported. -/
theorem pages_partition {s : Store} {c : Condition} {rows : List Json} {r : PageRequest}
    (hrows : (s.findAll c).outcome = .ok rows) (hlength : rows.length ≤ maxIndex)
    (hsize : 1 ≤ r.size) (hmax : r.size ≤ s.settings.pages.maxSize) :
    ∃ (sorted : List Json) (page : Nat → Page Json) (total : Nat),
      (s.findAllSorted c r.sortKeys).outcome = .ok sorted ∧
      (∀ p, (s.findPage c (some { r with number := p })).outcome = .ok (page p)) ∧
      total = rows.length ⌈/⌉ r.size ∧
      (∀ p, (page p).number = p ∧ (page p).size = r.size ∧
        (page p).totalElements = rows.length ∧ (page p).totalPages = total) ∧
      ((List.range total).flatMap fun p => (page p).content) = sorted ∧
      (∀ p, p + 1 < total → (page p).content.length = r.size) ∧
      (∀ p, p + 1 = total →
        1 ≤ (page p).content.length ∧ (page p).content.length ≤ r.size) ∧
      (∀ p, (page p).hasNext = true ↔ (page (p + 1)).content ≠ []) ∧
      ∀ p, total ≤ p → (page p).content = [] ∧ (page p).isLast = true := by
  have hsorted : (sortDocuments r.sortKeys rows).length = rows.length :=
    length_sortDocuments r.sortKeys rows
  have hindex : (sortDocuments r.sortKeys rows).length ≤ maxIndex := hsorted.trans_le hlength
  have hzero : r.size ≠ 0 := by omega
  have hbelow : ¬ s.settings.pages.maxSize < r.size := by omega
  refine ⟨sortDocuments r.sortKeys rows,
    fun p => .cut (sortDocuments r.sortKeys rows) { r with number := p },
    rows.length ⌈/⌉ r.size, ?_, fun p => ?_, rfl, fun p => ⟨rfl, ?_, hsorted, ?_⟩, ?_,
    fun p hp => ?_, fun p hp => ?_, fun p => ?_, fun p hp => ?_⟩
  · rw [outcome_findAllSorted, hrows]
    rfl
  · have hresolve : s.settings.pages.resolve (some { r with number := p }) =
        .ok { r with number := p } := by
      simp only [PageLimits.resolve, hzero, hbelow, if_false]
    rw [outcome_findPage hresolve, hrows]
    rfl
  · have hmaxSize : max r.size 1 = r.size := by omega
    exact hmaxSize
  · rw [Page.totalPages_cut (r := { r with number := p }) hsize, hsorted]
  · rw [← hsorted]
    exact Page.flatMap_content_cut hindex hsize
  · -- the rows go on after the page, so the page is full
    have hnext := (Page.lt_ceilDiv_iff hsize).mp hp
    rw [Page.length_content_cut (r := { r with number := p }) hindex hsize, hsorted]
    simp only
    rw [Nat.succ_mul] at hnext
    omega
  · have hstart : p * r.size < rows.length := (Page.lt_ceilDiv_iff hsize).mp (by omega)
    rw [Page.length_content_cut (r := { r with number := p }) hindex hsize, hsorted]
    simp only
    omega
  · rw [Page.hasNext, Bool.not_eq_true', ← Bool.not_eq_true,
      Page.isLast_cut_iff (r := { r with number := p }) hindex hsize, ne_eq,
      Page.content_cut_eq_nil_iff (r := { r with number := p + 1 }) hindex hsize]
  · rw [Page.isLast_cut_iff (r := { r with number := p }) hindex hsize,
      Page.content_cut_eq_nil_iff (r := { r with number := p }) hindex hsize, hsorted]
    exact ⟨hp, Nat.le_succ_of_le hp⟩

/-- Two rows on a page, the greatest key first. -/
def byId : PageRequest where
  size := 2
  sortBy := some "id"
  sortDirection := .descending

/-- The posts with their comments have three rows, so the second page has one row and is the
last. -/
theorem pages_partition_blog :
    ∃ (sorted : List Json) (page : Nat → Page Json),
      (blog.findAllSorted withComments byId.sortKeys).outcome = .ok sorted ∧
      (∀ p, (blog.findPage withComments (some { byId with number := p })).outcome =
        .ok (page p)) ∧
      (page 0).content ++ (page 1).content = sorted ∧ (page 0).content.length = 2 ∧
      (page 1).content ≠ [] ∧ (page maxIndex).content = [] ∧
      (page maxIndex).isLast = true := by
  have hrows : (blog.findAll withComments).outcome.map List.length = .ok 3 := rfl
  cases hall : (blog.findAll withComments).outcome with
  | error e =>
    rw [hall] at hrows
    cases hrows
  | ok rows =>
    rw [hall] at hrows
    have hthree : rows.length = 3 := Except.ok.inj hrows
    have hword : rows.length ≤ maxIndex := by
      rw [hthree]
      decide
    obtain ⟨sorted, page, total, hsorted, hpages, htotal, -, hpartition, hfull, hlast, -,
      hbeyond⟩ :=
      pages_partition (r := byId) hall hword (by decide) (by decide)
    have htwo : total = 2 := by
      rw [htotal, hthree]
      rfl
    subst htwo
    refine ⟨sorted, page, hsorted, hpages, ?_, hfull 0 (by omega),
      List.ne_nil_of_length_pos (hlast 1 rfl).1, hbeyond maxIndex (by decide)⟩
    rw [← hpartition]
    simp [List.range_succ]

end Store

end Criteria
