import Criteria.Proofs.Time.RoundTrip
import Criteria.Value.Temporal

/-!
# Moments as values

A moment becomes a value as text. The value can be compared with times if its text is read as a
timestamp, and it should be read as the moment.

## Main definitions

- `Value.Denotes`: the values that are read as a moment

## Main statements

- `Value.times_denoted`: which values of moments are read as the moments
-/

namespace Criteria

namespace Value

/-- The value is a text that is read as a moment. -/
def Denotes (v : Value) (t : Timestamp) : Prop :=
  ∃ s, v = .text s ∧ Timestamp.ofText? s = some t

theorem Denotes.check {v : Value} {t : Timestamp} (h : v.Denotes t) :
    v.check .temporal = .ok () := by
  obtain ⟨s, rfl, hread⟩ := h
  simp [Value.check, hread]

/-- A time of no known offset is a value that is read as the time, and a date one that is read
as its midnight. So is a time at offset zero if its year has four digits and no sign. In another
year it is a value that is read as no time, and that is refused where a time is expected. -/
theorem times_denoted {t : Timestamp} {d : Date} (ht : t.isValid = true)
    (hd : d.isValid = true) :
    ((ofLocalTime t).Denotes t ∧ (ofLocalTime t).check .temporal = .ok ()) ∧
      ((ofDate d).Denotes (.midnight d) ∧ (ofDate d).check .temporal = .ok ()) ∧
      (0 ≤ t.date.year ∧ t.date.year ≤ 9999 →
        (ofUniversalTime t).Denotes t ∧ (ofUniversalTime t).check .temporal = .ok ()) ∧
      (¬ (0 ≤ t.date.year ∧ t.date.year ≤ 9999) →
        (∀ t', ¬ (ofUniversalTime t).Denotes t') ∧
          (ofUniversalTime t).check .temporal =
            .error (.notTimestamp (String.ofList t.renderUniversal))) := by
  have hlocal : (ofLocalTime t).Denotes t := ⟨_, rfl, Timestamp.ofText?_render ht⟩
  have hdate : (ofDate d).Denotes (.midnight d) := ⟨_, rfl, Timestamp.ofText?_date hd⟩
  refine ⟨⟨hlocal, hlocal.check⟩, ⟨hdate, hdate.check⟩, fun hyear => ?_, fun hyear => ?_⟩
  · have huniversal : (ofUniversalTime t).Denotes t :=
      ⟨_, rfl, Timestamp.ofText?_renderUniversal ht hyear⟩
    exact ⟨huniversal, huniversal.check⟩
  · have hnone := Timestamp.ofText?_renderUniversal_of_not ht hyear
    constructor
    · rintro t' ⟨s, htext, hread⟩
      cases htext
      rw [hnone] at hread
      cases hread
    · simp [ofUniversalTime, Value.check, hnone]

/-- Half a second into a leap second at the end of the first year of the calendar. -/
def earliestLeap : Timestamp :=
  ⟨⟨-262143, 12, 31⟩, 23, 59, 59, 1500000000⟩

def latestDate : Date :=
  ⟨262142, 12, 31⟩

def lastOfFourDigits : Timestamp :=
  ⟨⟨9999, 12, 31⟩, 23, 59, 59, 999999999⟩

/-- A moment of the first year of five digits. -/
def firstOfFiveDigits : Timestamp :=
  ⟨⟨10000, 1, 1⟩, 0, 59, 59, 0⟩

theorem times_denoted_extremes :
    (ofLocalTime earliestLeap).Denotes earliestLeap ∧
      (ofDate latestDate).Denotes (.midnight latestDate) ∧
      (ofUniversalTime lastOfFourDigits).Denotes lastOfFourDigits ∧
      ∀ t, ¬ (ofUniversalTime firstOfFiveDigits).Denotes t := by
  have hvalid : latestDate.isValid = true := by decide
  obtain ⟨⟨hlocal, -⟩, ⟨hdate, -⟩, -⟩ := times_denoted (t := earliestLeap) (by decide) hvalid
  obtain ⟨-, -, hfour, -⟩ := times_denoted (t := lastOfFourDigits) (by decide) hvalid
  obtain ⟨-, -, -, hfive⟩ := times_denoted (t := firstOfFiveDigits) (by decide) hvalid
  exact ⟨hlocal, hdate, (hfour (by decide)).1, (hfive (by decide)).1⟩

/-- The same moment is accepted without the mark of its offset and refused with it. -/
theorem universal_time_refused :
    firstOfFiveDigits.isValid = true ∧
      ofUniversalTime firstOfFiveDigits = .text "+10000-01-01T00:59:59Z" ∧
      Timestamp.ofText? "+10000-01-01T00:59:59Z" = none ∧
      (ofUniversalTime firstOfFiveDigits).check .temporal =
        .error (.notTimestamp "+10000-01-01T00:59:59Z") ∧
      (ofLocalTime firstOfFiveDigits).check .temporal = .ok () := by
  have htext : String.ofList firstOfFiveDigits.renderUniversal = "+10000-01-01T00:59:59Z" := by
    decide +kernel
  have hvalid : firstOfFiveDigits.isValid = true := by decide
  have hnone := Timestamp.ofText?_renderUniversal_of_not hvalid (by decide)
  have hlocal : (ofLocalTime firstOfFiveDigits).Denotes firstOfFiveDigits :=
    ⟨_, rfl, Timestamp.ofText?_render hvalid⟩
  rw [htext] at hnone
  refine ⟨hvalid, congrArg text htext, hnone, ?_, hlocal.check⟩
  rw [ofUniversalTime, htext]
  simp [Value.check, hnone]

end Value

end Criteria
