import Criteria.Text.Split

/-!
# Texts and their ends

A text is read from the left. Where it stops is not written down: it shows from what is written and
from what may follow it. A thing whose text stops in this way is recovered from its text, and so
are several things with separators between their texts.

## Main definitions

- `Recovered`: what can be told from its text and anything that may follow it

## Main statements

- `append_inj_of_forall`: a run of characters stops before the first that is none of them
- `recovered_joinChars`: texts with separators between them
-/

namespace Criteria.Text

variable {α : Type} {f : α → List Char} {among : α → Prop} {Ends : List Char → Prop}

/-- A thing can be told from its text: among things of some kind, and with one of some ends
after it, no other has that text, and the text stops in one place only. -/
def Recovered (f : α → List Char) (among : α → Prop) (Ends : List Char → Prop) (a : α) : Prop :=
  ∀ ⦃b : α⦄ ⦃r s : List Char⦄, among b → Ends r → Ends s → f a ++ r = f b ++ s → a = b ∧ r = s

/-- Runs of characters of one kind are told apart by what follows, which does not start with such
a character. -/
theorem append_inj_of_forall {p : Char → Prop} {as bs r s : List Char} (has : ∀ c ∈ as, p c)
    (hbs : ∀ c ∈ bs, p c) (hr : ∀ c ∈ r.head?, ¬ p c) (hs : ∀ c ∈ s.head?, ¬ p c)
    (h : as ++ r = bs ++ s) : as = bs ∧ r = s := by
  rcases List.append_eq_append_iff.mp h with ⟨more, rfl, rfl⟩ | ⟨more, rfl, rfl⟩
  · cases more with
    | nil => simp
    | cons c more => exact absurd (hbs c (by simp)) (hr c (by simp))
  · cases more with
    | nil => simp
    | cons c more => exact absurd (has c (by simp)) (hs c (by simp))

section Separators

variable {sep : List Char}

theorem joinChars_cons (sep part : List Char) (parts : List (List Char)) :
    joinChars sep (part :: parts) = part ++ parts.flatMap (sep ++ ·) := by
  induction parts generalizing part with
  | nil => simp [joinChars]
  | cons next parts ih =>
    have hstep : joinChars sep (part :: next :: parts) =
        part ++ sep ++ joinChars sep (next :: parts) := rfl
    rw [hstep, ih, List.flatMap_cons, List.append_assoc, List.append_assoc]

/-- What stands in joined texts stands in a separator or in one of the texts. -/
theorem sep_or_part_of_mem_joinChars {parts : List (List Char)} {c : Char}
    (h : c ∈ joinChars sep parts) : c ∈ sep ∨ ∃ part ∈ parts, c ∈ part := by
  cases parts with
  | nil => cases h
  | cons part parts =>
    rw [joinChars_cons, List.mem_append, List.mem_flatMap] at h
    rcases h with h | ⟨next, hnext, h⟩
    · exact .inr ⟨part, List.mem_cons_self, h⟩
    · rcases List.mem_append.mp h with h | h
      · exact .inl h
      · exact .inr ⟨next, List.mem_cons_of_mem part hnext, h⟩

/-- What follows the first of several texts is an end of it. -/
theorem ends_flatMap_append (hsep : ∀ t, Ends (sep ++ t)) (parts : List (List Char))
    {r : List Char} (hr : Ends r) : Ends (parts.flatMap (sep ++ ·) ++ r) := by
  cases parts with
  | nil => exact hr
  | cons part parts => simpa using hsep (part ++ (parts.flatMap (sep ++ ·) ++ r))

/-- Each text after the first starts with a separator, and what follows the last does not. -/
theorem flatMap_append_inj (hsep : ∀ t, Ends (sep ++ t)) {as bs : List α}
    (has : ∀ a ∈ as, Recovered f among Ends a) (hbs : ∀ b ∈ bs, among b) {r s : List Char}
    (hr : Ends r) (hs : Ends s) (hrsep : ¬ sep <+: r) (hssep : ¬ sep <+: s)
    (h : (as.map f).flatMap (sep ++ ·) ++ r = (bs.map f).flatMap (sep ++ ·) ++ s) :
    as = bs ∧ r = s := by
  induction as generalizing bs with
  | nil =>
    cases bs with
    | nil => exact ⟨rfl, h⟩
    | cons b bs => exact absurd ⟨_, by simpa using h.symm⟩ hrsep
  | cons a as ih =>
    cases bs with
    | nil => exact absurd ⟨_, by simpa using h⟩ hssep
    | cons b bs =>
      rw [List.forall_mem_cons] at has hbs
      simp only [List.map_cons, List.flatMap_cons, List.append_assoc,
        List.append_cancel_left_eq] at h
      obtain ⟨rfl, hrest⟩ := has.1 hbs.1 (ends_flatMap_append hsep _ hr)
        (ends_flatMap_append hsep _ hs) h
      obtain ⟨rfl, rfl⟩ := ih has.2 hbs.2 hrest
      exact ⟨rfl, rfl⟩

/-- Several things are recovered from their texts with separators between them if each of them is,
no text is an end, and a separator is one. -/
theorem recovered_joinChars (sep : List Char) (hsep : ∀ t, Ends (sep ++ t))
    (hstart : ∀ a, among a → ∀ t, ¬ Ends (f a ++ t)) {as : List α} (hamong : ∀ a ∈ as, among a)
    (has : ∀ a ∈ as, Recovered f among Ends a) :
    Recovered (fun as => joinChars sep (as.map f)) (fun bs => ∀ b ∈ bs, among b)
      (fun r => Ends r ∧ ¬ sep <+: r) as := by
  rintro bs r s hbs ⟨hr, hrsep⟩ ⟨hs, hssep⟩ h
  match as, bs with
  | [], [] => exact ⟨rfl, h⟩
  | [], b :: bs =>
    simp only [List.map_cons, joinChars_cons, List.append_assoc] at h
    change r = _ at h
    exact absurd (h ▸ hr) (hstart b (hbs b (by simp)) _)
  | a :: as, [] =>
    simp only [List.map_cons, joinChars_cons, List.append_assoc] at h
    change _ = s at h
    exact absurd (h ▸ hs) (hstart a (hamong a (by simp)) _)
  | a :: as, b :: bs =>
    rw [List.forall_mem_cons] at has hbs
    simp only [List.map_cons, joinChars_cons, List.append_assoc] at h
    obtain ⟨rfl, hrest⟩ := has.1 hbs.1 (ends_flatMap_append hsep _ hr)
      (ends_flatMap_append hsep _ hs) h
    obtain ⟨rfl, rfl⟩ := flatMap_append_inj hsep has.2 hbs.2 hr hs hrsep hssep hrest
    exact ⟨rfl, rfl⟩

end Separators

end Criteria.Text
