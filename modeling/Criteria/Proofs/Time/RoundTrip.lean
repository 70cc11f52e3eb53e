import Criteria.Proofs.Time.Digits

/-!
# Times that are written and read again

A date and a time of day are read from their text as they were, in every year of the calendar.
A text with the mark of offset zero is read only as the interchange form, whose years have four
digits and no sign, so the text of another year with that mark is no timestamp.

## Main definitions

- `Time.markedTime?`, `Time.offsetTime?`: the interchange form after its date
- `Timestamp.renderClock`: the text of a time of day

## Main statements

- `Date.date?_render`, `Timestamp.time?_renderClock`: dates and times of day are read
- `Timestamp.interchange?_render`: what the interchange form reads
- `Timestamp.ofText?_render`, `Timestamp.ofText?_date`, `Timestamp.ofText?_renderUniversal`: what
  is read from the text of a moment
-/

namespace Criteria

open Time

namespace Time

variable {digits rest : List Char}

theorem isSpace_of_isDigit {c : Char} (h : c.isDigit = true) : Text.isSpace c = false := by
  have hrange : 48 ≤ c.toNat ∧ c.toNat ≤ 57 := by
    simpa [Char.isDigit, UInt32.le_iff_toNat_le] using h
  simp only [Text.isSpace, Bool.or_eq_false_iff, Bool.and_eq_false_iff, beq_eq_false_iff_ne,
    decide_eq_false_iff_not]
  omega

theorem dropWhile_isSpace_digits (h : Token.IsDigits digits) :
    (digits ++ rest).dropWhile Text.isSpace = digits ++ rest := by
  cases digits with
  | nil => exact absurd rfl h.1
  | cons c digits =>
    exact List.dropWhile_cons_of_neg (by simp [isSpace_of_isDigit (h.2 c List.mem_cons_self)])

theorem twoDigits?_padded {n : Nat} (h : n < 100) (rest : List Char) :
    twoDigits? (padded 2 n ++ rest) = some (n, rest) := by
  rw [twoDigits?, dropWhile_isSpace_digits (isDigits_padded 2 n)]
  exact atMost?_padded (by decide) h rest

/-- A year without a sign is one of four digits at most. -/
theorem year?_digits (h : Token.IsDigits digits) :
    year? (digits ++ rest) =
      (atMost? 4 (digits ++ rest)).bind fun read => some ((read.1 : Int), read.2) := by
  rw [year?, dropWhile_isSpace_digits h]
  cases digits with
  | nil => exact absurd rfl h.1
  | cons c digits =>
    have hc := h.2 c List.mem_cons_self
    have hminus : c ≠ '-' := by
      rintro rfl
      cases hc
    have hplus : c ≠ '+' := by
      rintro rfl
      cases hc
    rw [List.cons_append]
    split
    · exact absurd (List.cons_eq_cons.mp ‹_›).1 hminus
    · exact absurd (List.cons_eq_cons.mp ‹_›).1 hplus
    · rfl

theorem year?_yearText (year : Int) (rest : List Char) :
    year? (yearText year ++ '-' :: rest) = some (year, '-' :: rest) := by
  have hends : Token.EndsDigits ('-' :: rest) := by
    intro c hc
    cases hc
    rfl
  -- after a sign the reader takes all the digits there are, up to the dash
  have hsigned : atMost? (padded 4 year.natAbs ++ '-' :: rest).length
      (padded 4 year.natAbs ++ '-' :: rest) = some (year.natAbs, '-' :: rest) := by
    rw [atMost?_append (isDigits_padded 4 _) (by simp) (.inr hends), ofDigitChars_padded]
  unfold yearText
  split_ifs with hneg hfour
  · have hyear : -(year.natAbs : Int) = year := by omega
    have hspace : Text.isSpace '-' = false := by decide
    rw [year?, List.cons_append, List.dropWhile_cons_of_neg (by simp [hspace])]
    simp only [hsigned, Option.bind_eq_bind, Option.bind_some, hyear]
    rfl
  · have hyear : (year.natAbs : Int) = year := by omega
    rw [year?_digits (isDigits_padded 4 _), atMost?_padded (by decide) (by omega)]
    simp [hyear]
  · have hyear : (year.natAbs : Int) = year := by omega
    have hspace : Text.isSpace '+' = false := by decide
    rw [year?, List.cons_append, List.dropWhile_cons_of_neg (by simp [hspace])]
    simp only [hsigned, Option.bind_eq_bind, Option.bind_some, hyear]
    rfl

/-- The interchange form has no sign before the year. -/
theorem yearText_of_le {year : Int} (h : 0 ≤ year ∧ year ≤ 9999) :
    yearText year = padded 4 year.natAbs := by
  rw [yearText, if_neg (not_lt.mpr h.1), if_pos h.2]

theorem exists_yearText_eq_cons {year : Int} (h : ¬ (0 ≤ year ∧ year ≤ 9999)) :
    ∃ sign digits, yearText year = sign :: digits ∧ digit? sign = none := by
  unfold yearText
  split_ifs with hneg hfour
  · exact ⟨'-', _, rfl, rfl⟩
  · omega
  · exact ⟨'+', _, rfl, rfl⟩

theorem exactly?_yearText {year : Int} (h : 0 ≤ year ∧ year ≤ 9999) (rest : List Char) :
    exactly? 4 (yearText year ++ rest) = some (year.natAbs, rest) := by
  rw [yearText_of_le h]
  exact exactly?_padded (by decide) (by omega) rest

theorem exactly?_two {n : Nat} (h : n < 100) (rest : List Char) :
    exactly? 2 (padded 2 n ++ rest) = some (n, rest) :=
  exactly?_padded (by decide) h rest

/-- A time of day with an offset in the interchange form. -/
def offsetTime? (date : Date) (cs : List Char) : Option (Timestamp × List Char) := do
  let (hour, cs) ← exactly? 2 cs
  let cs ← literal? ':' cs
  let (minute, cs) ← exactly? 2 cs
  let cs ← literal? ':' cs
  let (second, cs) ← exactly? 2 cs
  let (fraction, cs) ← fraction? cs
  let (offset, cs) ← offset? cs
  let t ← timeOf? date hour minute second fraction
  return (t.shiftMinutes (-offset), cs)

/-- What follows a date in the interchange form. -/
def markedTime? (date : Date) (cs : List Char) : Option (Timestamp × List Char) := do
  let (mark, cs) ← cs.head?.map fun c => (c, cs.drop 1)
  if !isTimeMark mark then none else offsetTime? date cs

theorem interchange?_eq (cs : List Char) : interchange? cs = (do
    let (year, cs) ← exactly? 4 cs
    let cs ← literal? '-' cs
    let (month, cs) ← exactly? 2 cs
    let cs ← literal? '-' cs
    let (day, cs) ← exactly? 2 cs
    let date ← dateOf? year month day
    markedTime? date cs) :=
  rfl

theorem interchange?_of_digit? {c : Char} (h : digit? c = none) (rest : List Char) :
    interchange? (c :: rest) = none := by
  have hyear : exactly? 4 (c :: rest) = none := by
    rw [exactly?, upToDigits.eq_def]
    simp [h]
  rw [interchange?, hyear]
  rfl

theorem literal?_cons (c : Char) (rest : List Char) : literal? c (c :: rest) = some rest :=
  if_pos rfl

end Time

namespace Date

variable {d : Date}

theorem dateOf?_of_isValid (h : d.isValid = true) : dateOf? d.year d.month d.day = some d :=
  if_pos h

theorem bounds_of_isValid (h : d.isValid = true) : d.month < 100 ∧ d.day < 100 := by
  have hdays : daysInMonth d.year d.month ≤ 31 := by
    unfold daysInMonth
    split_ifs <;> decide
  simp only [isValid, Bool.and_eq_true, decide_eq_true_eq] at h
  omega

theorem date?_render (h : d.isValid = true) (rest : List Char) :
    date? (d.render ++ rest) = some (d, rest) := by
  obtain ⟨hmonth, hday⟩ := bounds_of_isValid h
  simp only [date?, render, List.append_assoc, List.cons_append, year?_yearText,
    Option.bind_eq_bind, Option.bind_some, literal?_cons, twoDigits?_padded hmonth,
    twoDigits?_padded hday, dateOf?_of_isValid h]
  rfl

theorem interchange?_render_of_not (h : ¬ (0 ≤ d.year ∧ d.year ≤ 9999)) (rest : List Char) :
    interchange? (d.render ++ rest) = none := by
  obtain ⟨sign, digits, hyear, hsign⟩ := exists_yearText_eq_cons h
  simp only [render, hyear, List.cons_append]
  exact interchange?_of_digit? hsign _

theorem interchange?_render (h : d.isValid = true) (hyear : 0 ≤ d.year ∧ d.year ≤ 9999)
    (rest : List Char) : interchange? (d.render ++ rest) = markedTime? d rest := by
  obtain ⟨hmonth, hday⟩ := bounds_of_isValid h
  have hnat : (d.year.natAbs : Int) = d.year := by omega
  simp only [interchange?_eq, render, List.append_assoc, List.cons_append, Option.bind_eq_bind,
    Option.bind_some, exactly?_yearText hyear, literal?_cons, exactly?_two hmonth,
    exactly?_two hday, hnat, dateOf?_of_isValid h]

end Date

namespace Timestamp

variable {t : Timestamp} {rest : List Char}

/-- The second as it is written, which is 60 in a leap second. -/
def writtenSecond (t : Timestamp) : Nat :=
  if leapNanosecond ≤ t.nanosecond then t.second + 1 else t.second

/-- The nanoseconds as they are written, less than those of a second. -/
def writtenNanosecond (t : Timestamp) : Nat :=
  if leapNanosecond ≤ t.nanosecond then t.nanosecond - leapNanosecond else t.nanosecond

/-- The characters of a time of day. -/
def renderClock (t : Timestamp) : List Char :=
  padded 2 t.hour ++ ':' :: padded 2 t.minute ++ ':' :: padded 2 t.writtenSecond ++
    fractionText t.writtenNanosecond

theorem render_eq (t : Timestamp) : t.render = t.date.render ++ 'T' :: t.renderClock := by
  simp [render, renderClock, writtenSecond, writtenNanosecond]

theorem isValid_iff : t.isValid = true ↔ t.date.isValid = true ∧ t.hour < 24 ∧ t.minute < 60 ∧
    t.second < 60 ∧ (t.nanosecond < leapNanosecond ∨
      t.second = 59 ∧ t.nanosecond < 2 * leapNanosecond) := by
  simp [isValid, and_assoc]

theorem writtenSecond_le (h : t.isValid = true) : t.writtenSecond ≤ 60 := by
  obtain ⟨-, -, -, hsecond, -⟩ := isValid_iff.mp h
  unfold writtenSecond
  split_ifs <;> omega

/-- The parts of a time of day as they are written fill two digits each, and nine. -/
theorem written_lt (h : t.isValid = true) : t.hour < 100 ∧ t.minute < 100 ∧
    t.writtenSecond < 100 ∧ t.writtenNanosecond < leapNanosecond := by
  have hsecond := writtenSecond_le h
  obtain ⟨-, hhour, hminute, -, hnanosecond⟩ := isValid_iff.mp h
  refine ⟨by omega, by omega, by omega, ?_⟩
  unfold writtenNanosecond
  split_ifs <;> omega

/-- The parts of a time as they are written give the time, and second 60 the leap second. -/
theorem timeOf?_written (h : t.isValid = true) :
    timeOf? t.date t.hour t.minute t.writtenSecond t.writtenNanosecond = some t := by
  have hle := writtenSecond_le h
  obtain ⟨-, hhour, hminute, hsecond, hnanosecond⟩ := isValid_iff.mp h
  have hrange : (t.hour < 24 && t.minute < 60 && t.writtenSecond ≤ 60) = true := by
    simp [hhour, hminute, hle]
  rw [timeOf?, if_pos hrange]
  unfold writtenSecond writtenNanosecond
  by_cases hleap : leapNanosecond ≤ t.nanosecond
  · -- a leap second is one of second 59, so it is written as 60 and no other second is
    have hlast : t.second = 59 := by omega
    have hsum : leapNanosecond + (t.nanosecond - leapNanosecond) = t.nanosecond := by omega
    have hsixty : t.second + 1 = 60 := by omega
    rw [if_pos hleap, if_pos hleap, if_pos hsixty, hsum, ← hlast]
  · have hordinary : t.second ≠ 60 := by omega
    simp only [if_neg hleap, if_neg hordinary]

section Reading

variable (hends : EndsFraction rest)
include hends

theorem time?_renderClock (h : t.isValid = true) :
    time? t.date (t.renderClock ++ rest) = some (t, rest) := by
  obtain ⟨hhour, hminute, hsecond, hnanosecond⟩ := written_lt h
  simp only [time?, renderClock, List.append_assoc, List.cons_append, Option.bind_eq_bind,
    Option.bind_some, literal?_cons, twoDigits?_padded hhour, twoDigits?_padded hminute,
    twoDigits?_padded hsecond, fraction?_fractionText hends hnanosecond, timeOf?_written h]
  rfl

/-- The interchange form is the written form and an offset. -/
theorem interchange?_render (h : t.isValid = true)
    (hyear : 0 ≤ t.date.year ∧ t.date.year ≤ 9999) :
    interchange? (t.render ++ rest) =
      (offset? rest).bind fun read => some (t.shiftMinutes (-read.1), read.2) := by
  obtain ⟨hhour, hminute, hsecond, hnanosecond⟩ := written_lt h
  have hmark : (!isTimeMark 'T') = false := rfl
  rw [render_eq, List.append_assoc, Date.interchange?_render (isValid_iff.mp h).1 hyear]
  simp only [markedTime?, List.cons_append, List.head?_cons, Option.map_some, List.drop_succ_cons,
    List.drop_zero, Option.bind_eq_bind, Option.bind_some, hmark, Bool.false_eq_true, if_false,
    offsetTime?, renderClock, List.append_assoc, exactly?_two hhour, literal?_cons,
    exactly?_two hminute, exactly?_two hsecond, fraction?_fractionText hends hnanosecond,
    timeOf?_written h]
  rfl

theorem marked?_render (h : t.isValid = true) : marked? (t.render ++ rest) = some (t, rest) := by
  have hdate := Date.date?_render (isValid_iff.mp h).1
  simp only [marked?, render_eq, List.append_assoc, List.cons_append, hdate, Option.bind_eq_bind,
    Option.bind_some, literal?_cons, time?_renderClock hends h]

end Reading

theorem ofText?_ofList (cs : List Char) :
    ofText? (String.ofList cs) =
      ((complete? (interchange? cs)).or ((complete? (marked? cs)).or
        ((complete? (spaced? cs)).or ((complete? (date? cs)).map midnight)))) := by
  simp only [ofText?, ofOffsetText?, ofLocalText?, Date.ofText?, String.toList_ofList]
  cases complete? (interchange? cs) <;> cases complete? (marked? cs) <;>
    cases complete? (spaced? cs) <;> rfl

/-- Without an offset it is not the interchange form that is read. -/
theorem complete?_interchange?_render (h : t.isValid = true) :
    complete? (interchange? t.render) = none := by
  by_cases hyear : 0 ≤ t.date.year ∧ t.date.year ≤ 9999
  · have hread := interchange?_render endsFraction_nil h hyear
    rw [List.append_nil] at hread
    rw [hread]
    rfl
  · rw [render_eq, Date.interchange?_render_of_not hyear]
    rfl

theorem ofText?_render (h : t.isValid = true) : ofText? (String.ofList t.render) = some t := by
  have hread := marked?_render endsFraction_nil h
  rw [List.append_nil] at hread
  rw [ofText?_ofList, complete?_interchange?_render h, hread]
  rfl

theorem ofText?_date {d : Date} (h : d.isValid = true) :
    ofText? (String.ofList d.render) = some (midnight d) := by
  have hdate := d.date?_render h []
  have hinterchange : complete? (interchange? (d.render ++ [])) = none := by
    by_cases hyear : 0 ≤ d.year ∧ d.year ≤ 9999
    · rw [Date.interchange?_render h hyear]
      rfl
    · rw [Date.interchange?_render_of_not hyear]
      rfl
  -- the forms with a time of day take the date and find no hour after it
  rw [← List.append_nil d.render, ofText?_ofList, hinterchange, marked?, spaced?, hdate]
  rfl

theorem shiftMinutes_zero (h : t.isValid = true) : t.shiftMinutes 0 = t := by
  obtain ⟨-, hhour, hminute, -⟩ := isValid_iff.mp h
  have hday : t.hour * 60 + t.minute < 1440 := by omega
  have hclock : (t.hour * 60 + t.minute) / 60 = t.hour ∧
      (t.hour * 60 + t.minute) % 60 = t.minute := by omega
  have hmoved : ((t.hour * 60 + t.minute : Nat) : Int) % 1440 = (t.hour * 60 + t.minute : Nat) := by
    omega
  simp only [shiftMinutes, add_zero, hmoved, Int.toNat_natCast, hclock]
  rw [if_neg (by omega), if_pos (by omega)]

theorem ofText?_renderUniversal (h : t.isValid = true)
    (hyear : 0 ≤ t.date.year ∧ t.date.year ≤ 9999) :
    ofText? (String.ofList t.renderUniversal) = some t := by
  have hread := interchange?_render endsFraction_mark h hyear
  have hoffset : offset? ['Z'] = some (0, []) := rfl
  have hzero : t.shiftMinutes (-0) = t := shiftMinutes_zero h
  rw [hoffset, Option.bind_some, hzero] at hread
  rw [ofText?_ofList, renderUniversal, hread]
  rfl

theorem ofText?_renderUniversal_of_not (h : t.isValid = true)
    (hyear : ¬ (0 ≤ t.date.year ∧ t.date.year ≤ 9999)) :
    ofText? (String.ofList t.renderUniversal) = none := by
  have hmarked := marked?_render endsFraction_mark h
  have htext : t.renderUniversal = t.date.render ++ ('T' :: t.renderClock ++ ['Z']) := by
    rw [renderUniversal, render_eq, List.append_assoc]
  have hdate := t.date.date?_render (isValid_iff.mp h).1 ('T' :: t.renderClock ++ ['Z'])
  have hinterchange := t.date.interchange?_render_of_not hyear ('T' :: t.renderClock ++ ['Z'])
  rw [← htext] at hdate hinterchange
  rw [← renderUniversal] at hmarked
  -- the form that is marked with T leaves the mark of the offset, and the other two that T
  rw [ofText?_ofList, hinterchange, hmarked, spaced?, hdate]
  rfl

end Timestamp

end Criteria
