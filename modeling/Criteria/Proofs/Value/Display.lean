import Criteria.Proofs.Json.NumberTexts
import Criteria.Proofs.Text.Delimited
import Criteria.Value

/-!
# Values in plans

A value in a plan can be told from its text. A quote within a text is written twice, and the one at
its end stands alone; a number stops before the first character that belongs to none; a list is in
brackets. The kind of a value shows in its first character.

Floating-point numbers are left out: one that is whole has the text of the integer.

## Main definitions

- `Value.Floatless`: values without floating-point numbers
- `Value.Opening`: what the first character of a value tells

## Main statements

- `Value.recovered_quoted`: texts in quotes
- `Value.recovered_render`: values
-/

namespace Criteria

open Text

theorem intText_injective {i j : Int} (h : intText i = intText j) : i = j := by
  have hnumber : Token.number? (intText i) = Token.number? (intText j) := by rw [h]
  simp only [Token.number?_intText, Option.some.injEq, Prod.mk.injEq,
    NumberText.mk.injEq] at hnumber
  obtain ⟨⟨hsign, hdigits, -⟩, -⟩ := hnumber
  have hnatAbs : i.natAbs = j.natAbs := by
    rw [← Token.ofDigits_decimalDigits i.natAbs, hdigits, Token.ofDigits_decimalDigits]
  have hsign : i < 0 ↔ j < 0 := by simpa using hsign
  omega

/-- The characters of integers. -/
def IsIntegerChar (c : Char) : Prop :=
  c = '-' ∨ c.isDigit = true

theorem isIntegerChar_of_mem_intText {i : Int} {c : Char} (h : c ∈ intText i) :
    IsIntegerChar c := by
  unfold intText at h
  split at h
  · rcases List.mem_cons.mp h with rfl | h
    · exact .inl rfl
    · exact .inr (Token.isDigit_of_mem_decimalDigits h)
  · exact .inr (Token.isDigit_of_mem_decimalDigits h)

theorem intText_ne_nil (i : Int) : intText i ≠ [] := by
  unfold intText
  split
  · exact List.cons_ne_nil _ _
  · exact Nat.toDigits_ne_nil

namespace Value

mutual

/-- The value is no floating-point number and holds none. -/
def Floatless : Value → Prop
  | .float _ => False
  | .list items => FloatlessItems items
  | _ => True

def FloatlessItems : List Value → Prop
  | [] => True
  | item :: rest => Floatless item ∧ FloatlessItems rest

end

theorem floatlessItems_iff {items : List Value} :
    FloatlessItems items ↔ ∀ item ∈ items, item.Floatless := by
  induction items with
  | nil => simp [FloatlessItems]
  | cons item rest ih => rw [FloatlessItems, ih, List.forall_mem_cons]

theorem floatless_list_iff {items : List Value} :
    Floatless (.list items) ↔ ∀ item ∈ items, item.Floatless := by
  rw [Floatless, floatlessItems_iff]

theorem renderItems_eq (items : List Value) :
    renderItems items = joinChars [',', ' '] (items.map render) := by
  induction items with
  | nil => rfl
  | cons item rest ih =>
    cases rest with
    | nil => rfl
    | cons next rest =>
      have hstep : renderItems (item :: next :: rest) =
          item.render ++ ',' :: ' ' :: renderItems (next :: rest) := rfl
      have hjoin : joinChars [',', ' '] ((item :: next :: rest).map render) =
          item.render ++ [',', ' '] ++ joinChars [',', ' '] ((next :: rest).map render) := rfl
      rw [hstep, hjoin, ih, List.append_assoc]
      rfl

section Quoted

/-- A character within quotes. -/
def escaped (c : Char) : List Char :=
  if c = '\'' then ['\'', '\''] else [c]

/-- A quote that stands alone ends what is in quotes. -/
theorem escaped_append_inj {as bs r s : List Char} (hr : ∀ c ∈ r.head?, c ≠ '\'')
    (hs : ∀ c ∈ s.head?, c ≠ '\'')
    (h : as.flatMap escaped ++ '\'' :: r = bs.flatMap escaped ++ '\'' :: s) : as = bs ∧ r = s := by
  -- a text goes on where the other stops: then the quote there is one of two
  have hstop {c : Char} {cs t u : List Char} (hu : ∀ c ∈ u.head?, c ≠ '\'') :
      '\'' :: u ≠ escaped c ++ (cs.flatMap escaped ++ '\'' :: t) := by
    intro h
    by_cases hc : c = '\''
    · simp only [escaped, if_pos hc, List.cons_append, List.cons.injEq, true_and] at h
      exact hu '\'' (by simp [h]) rfl
    · simp only [escaped, if_neg hc, List.cons_append, List.cons.injEq] at h
      exact hc h.1.symm
  induction as generalizing bs with
  | nil =>
    cases bs with
    | nil => exact ⟨rfl, by simpa using h⟩
    | cons d bs => exact absurd (by simpa using h) (hstop hr)
  | cons c as ih =>
    cases bs with
    | nil => exact absurd (by simpa using h.symm) (hstop hs)
    | cons d bs =>
      rw [List.flatMap_cons, List.flatMap_cons, List.append_assoc, List.append_assoc] at h
      have hhead (c : Char) : (escaped c).head? = some c := by
        unfold escaped
        split
        · simp [*]
        · rfl
      obtain rfl : c = d := by
        have hheads := congrArg List.head? h
        simpa only [List.head?_append, hhead, Option.some_or, Option.some.injEq] using hheads
      obtain ⟨rfl, rfl⟩ := ih (List.append_cancel_left h)
      exact ⟨rfl, rfl⟩

theorem recovered_quoted (text : String) :
    Recovered quoted (fun _ => True) (fun r => ∀ c ∈ r.head?, c ≠ '\'') text := by
  intro other r s _ hr hs h
  simp only [quoted, List.cons_append, List.append_assoc, List.cons.injEq, true_and,
    List.nil_append] at h
  obtain ⟨heq, hrest⟩ := escaped_append_inj hr hs h
  exact ⟨String.toList_inj.mp heq, hrest⟩

end Quoted

/-- What the first character of a value tells. -/
inductive Opening where
  | null
  | truth (b : Bool)
  | number
  | text
  | list
deriving DecidableEq

def opening : Value → Opening
  | .null => .null
  | .bool b => .truth b
  | .int _ => .number
  | .float _ => .number
  | .text _ => .text
  | .list _ => .list

def openingOf? (c : Char) : Option Opening :=
  if c = 'N' then some .null
  else if c = 't' then some (.truth true)
  else if c = 'f' then some (.truth false)
  else if c = '\'' then some .text
  else if c = '(' then some .list
  else if c = '-' ∨ c.isDigit then some .number
  else none

theorem openingOf?_of_isIntegerChar {c : Char} (h : IsIntegerChar c) :
    openingOf? c = some .number := by
  rcases h with rfl | h
  · rfl
  · have hne {d : Char} (hd : d.isDigit = false) : c ≠ d := by
      rintro rfl
      rw [hd] at h
      cases h
    unfold openingOf?
    rw [if_neg (hne (by decide)), if_neg (hne (by decide)), if_neg (hne (by decide)),
      if_neg (hne (by decide)), if_neg (hne (by decide)), if_pos (.inr h)]

/-- The first character of a value tells its kind. -/
theorem exists_render_eq_cons {v : Value} (h : v.Floatless) :
    ∃ c cs, v.render = c :: cs ∧ openingOf? c = some v.opening := by
  cases v with
  | null => exact ⟨_, _, rfl, rfl⟩
  | bool b => cases b <;> exact ⟨_, _, rfl, rfl⟩
  | int i =>
    obtain ⟨c, cs, hcs⟩ := List.exists_cons_of_ne_nil (intText_ne_nil i)
    refine ⟨c, cs, hcs, openingOf?_of_isIntegerChar (isIntegerChar_of_mem_intText (i := i) ?_)⟩
    rw [hcs]
    exact List.mem_cons_self
  | float x => exact h.elim
  | text s => exact ⟨_, _, rfl, rfl⟩
  | list items => exact ⟨_, _, rfl, rfl⟩

/-- What may follow a value. -/
def EndsValue (r : List Char) : Prop :=
  ∀ c ∈ r.head?, c = ' ' ∨ c = ',' ∨ c = ')'

theorem not_endsValue_render_append {v : Value} (h : v.Floatless) (t : List Char) :
    ¬ EndsValue (v.render ++ t) := by
  obtain ⟨c, cs, hcs, hopening⟩ := exists_render_eq_cons h
  intro hends
  rw [hcs] at hends
  rcases hends c rfl with rfl | rfl | rfl <;> cases hopening

theorem opening_eq_of_render_append {v w : Value} (hv : v.Floatless) (hw : w.Floatless)
    {r s : List Char} (h : v.render ++ r = w.render ++ s) : v.opening = w.opening := by
  obtain ⟨c, cs, hcs, hopening⟩ := exists_render_eq_cons hv
  obtain ⟨d, ds, hds, hopening'⟩ := exists_render_eq_cons hw
  rw [hcs, hds] at h
  obtain rfl := (List.cons.inj h).1
  exact Option.some.inj (hopening.symm.trans hopening')

theorem recovered_intText (i : Int) : Recovered intText (fun _ => True) EndsValue i := by
  intro j r s _ hr hs h
  have hends {t : List Char} (ht : EndsValue t) : ∀ c ∈ t.head?, ¬ IsIntegerChar c := by
    intro c hc hinteger
    rcases ht c hc with rfl | rfl | rfl <;> exact absurd hinteger (by unfold IsIntegerChar; decide)
  obtain ⟨htext, hrest⟩ := append_inj_of_forall (fun _ => isIntegerChar_of_mem_intText)
    (fun _ => isIntegerChar_of_mem_intText) (hends hr) (hends hs) h
  exact ⟨intText_injective htext, hrest⟩

/-- Brackets around items that are recovered. -/
theorem recovered_list {items : List Value} (hfloatless : ∀ v ∈ items, v.Floatless)
    (hitems : ∀ v ∈ items, Recovered render Floatless EndsValue v) :
    Recovered render Floatless EndsValue (.list items) := by
  intro w r s hw _ _ h
  have hopening := opening_eq_of_render_append (floatless_list_iff.mpr hfloatless) hw h
  cases w with
  | list others =>
    have hbracket (t : List Char) : EndsValue (')' :: t) ∧ ¬ [',', ' '] <+: ')' :: t := by
      refine ⟨fun c hc => .inr (.inr (Option.some.inj hc).symm), ?_⟩
      rintro ⟨u, hu⟩
      cases hu
    simp only [render, renderItems_eq, List.cons_append, List.append_assoc, List.cons.injEq,
      true_and, List.nil_append] at h
    obtain ⟨rfl, hrest⟩ := recovered_joinChars _
      (fun _ c hc => .inr (.inl (Option.some.inj hc).symm))
      (fun _ hv => not_endsValue_render_append hv) hfloatless hitems
      (floatless_list_iff.mp hw) (hbracket r) (hbracket s) h
    exact ⟨rfl, List.tail_eq_of_cons_eq hrest⟩
  | _ => cases hopening

mutual

/-- A value without floating-point numbers is recovered from its text. -/
theorem recovered_render (v : Value) (h : v.Floatless) :
    Recovered render Floatless EndsValue v := by
  cases v with
  | list items =>
    have hitems := floatless_list_iff.mp h
    exact recovered_list hitems (recovered_of_mem items hitems)
  | null =>
    intro w r s hw hr hs htext
    cases w with
    | null => exact ⟨rfl, List.append_cancel_left htext⟩
    | _ => cases opening_eq_of_render_append h hw htext
  | bool b =>
    intro w r s hw hr hs htext
    cases w with
    | bool b' =>
      obtain rfl := Opening.truth.inj (opening_eq_of_render_append h hw htext)
      exact ⟨rfl, List.append_cancel_left htext⟩
    | _ => cases opening_eq_of_render_append h hw htext
  | int i =>
    intro w r s hw hr hs htext
    cases w with
    | int j =>
      obtain ⟨rfl, hrest⟩ := recovered_intText i trivial hr hs htext
      exact ⟨rfl, hrest⟩
    | float x => exact hw.elim
    | _ => cases opening_eq_of_render_append h hw htext
  | float x => exact h.elim
  | text t =>
    intro w r s hw hr hs htext
    cases w with
    | text u =>
      have hends {t : List Char} (ht : EndsValue t) : ∀ c ∈ t.head?, c ≠ '\'' := by
        intro c hc
        rcases ht c hc with rfl | rfl | rfl <;> decide
      obtain ⟨rfl, hrest⟩ := recovered_quoted t trivial (hends hr) (hends hs) htext
      exact ⟨rfl, hrest⟩
    | _ => cases opening_eq_of_render_append h hw htext

theorem recovered_of_mem (items : List Value) (h : ∀ v ∈ items, v.Floatless) :
    ∀ v ∈ items, Recovered render Floatless EndsValue v := by
  match items with
  | [] => exact nofun
  | item :: rest =>
    rw [List.forall_mem_cons] at h ⊢
    exact ⟨recovered_render item h.1, recovered_of_mem rest h.2⟩

end

end Value

end Criteria
