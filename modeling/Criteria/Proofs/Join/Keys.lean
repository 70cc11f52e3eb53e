import Mathlib.Data.List.DropRight
import Criteria.Join.Basic

/-!
# Keys that stand for one join

A path is split at its dots, and each part of it is trimmed and becomes the key of a join. Such
a key is a path again, of one part and with nothing left to trim, so it stands for that join
alone.

## Main definitions

- `Join.PlainKey`: keys that stand for one join

## Main statements

- `Join.plainKey_trim`: the parts of a path become such keys
- `Join.ofPath_of_plainKey`: the join that such a key stands for
-/

namespace Criteria

namespace Text

section Split

variable {sep : Char} {cs : List Char}

theorem splitChars_of_not_mem (h : sep ∉ cs) : splitChars sep cs = [cs] := by
  induction cs with
  | nil => rfl
  | cons c rest ih =>
    rw [List.mem_cons, not_or] at h
    rw [splitChars, if_neg (Ne.symm h.1), ih h.2]

theorem not_mem_of_mem_splitChars {part : List Char} (h : part ∈ splitChars sep cs) :
    sep ∉ part := by
  induction cs generalizing part with
  | nil =>
    obtain rfl := List.mem_singleton.mp h
    exact List.not_mem_nil
  | cons c rest ih =>
    rw [splitChars] at h
    split at h
    · rcases List.mem_cons.mp h with rfl | h
      · exact List.not_mem_nil
      · exact ih h
    · rename_i hne
      split at h
      · rename_i hnil
        exact absurd hnil (splitChars_ne_nil sep rest)
      · rename_i first parts hparts
        have hall : ∀ p ∈ first :: parts, sep ∉ p := fun p hp => ih (hparts ▸ hp)
        rcases List.mem_cons.mp h with rfl | h
        · rw [List.mem_cons, not_or]
          exact ⟨Ne.symm hne, hall first List.mem_cons_self⟩
        · exact hall part (List.mem_cons_of_mem first h)

theorem splitChars_append (sep : Char) (as bs : List Char) :
    splitChars sep (as ++ sep :: bs) = splitChars sep as ++ splitChars sep bs := by
  induction as with
  | nil => simp [splitChars]
  | cons a as ih =>
    rw [List.cons_append, splitChars, splitChars, ih]
    split
    · rfl
    · cases h : splitChars sep as with
      | nil => exact absurd h (splitChars_ne_nil sep as)
      | cons part parts => rfl

end Split

section Trim

variable {cs : List Char}

theorem mem_of_mem_trimChars {c : Char} (h : c ∈ trimChars cs) : c ∈ cs := by
  rw [trimChars, List.mem_reverse] at h
  have hinner := (List.dropWhile_sublist isSpace).subset h
  rw [List.mem_reverse] at hinner
  exact (List.dropWhile_sublist isSpace).subset hinner

theorem trimChars_eq (cs : List Char) :
    trimChars cs = (cs.dropWhile isSpace).rdropWhile isSpace :=
  rfl

/-- What is left after the white space at the start does not start with white space. -/
theorem isSpace_of_dropWhile_eq_cons {c : Char} {rest : List Char}
    (h : cs.dropWhile isSpace = c :: rest) : isSpace c = false := by
  have hne : cs.dropWhile isSpace ≠ [] := h ▸ List.cons_ne_nil c rest
  simpa [h] using List.head_dropWhile_not isSpace hne

theorem trimChars_trimChars (cs : List Char) : trimChars (trimChars cs) = trimChars cs := by
  cases htrim : trimChars cs with
  | nil => rfl
  | cons c rest =>
    have hprefix : c :: rest <+: cs.dropWhile isSpace := by
      rw [← htrim]
      exact List.rdropWhile_prefix isSpace _
    obtain ⟨dropped, hdropped⟩ := hprefix
    have hspace : ¬ isSpace c = true := by
      rw [isSpace_of_dropWhile_eq_cons hdropped.symm]
      exact Bool.false_ne_true
    rw [trimChars_eq, List.dropWhile_cons_of_neg hspace, ← htrim, trimChars_eq,
      List.rdropWhile_idempotent]

theorem all_isSpace_of_trimChars (h : trimChars cs = []) : cs.all isSpace = true := by
  rw [trimChars_eq, List.rdropWhile_eq_nil_iff] at h
  rw [List.all_eq_true, ← List.dropWhile_eq_nil_iff]
  cases hrest : cs.dropWhile isSpace with
  | nil => rfl
  | cons c rest =>
    rw [hrest] at h
    have hspace := h c List.mem_cons_self
    rw [isSpace_of_dropWhile_eq_cons hrest] at hspace
    cases hspace

theorem trim_trim (s : String) : trim (trim s) = trim s := by
  rw [trim, trim, String.toList_ofList, trimChars_trimChars]

/-- A text that is not blank is not blank when it is trimmed. -/
theorem isBlank_of_isBlank_trim {s : String} (h : isBlank (trim s) = true) :
    isBlank s = true := by
  rw [isBlank, trim, String.toList_ofList] at h
  refine all_isSpace_of_trimChars ?_
  rw [← trimChars_trimChars, trimChars_of_all_isSpace h]

end Trim

end Text

namespace Path

/-- A text without dots is a path of one part. -/
theorem parts_of_not_mem {path : String} (h : '.' ∉ path.toList) : parts path = [path] := by
  rw [parts, Text.split, Text.splitChars_of_not_mem h, List.map_singleton, String.ofList_toList]

/-- No part of a path has a dot. -/
theorem not_mem_of_mem_parts {path part : String} (h : part ∈ parts path) :
    '.' ∉ part.toList := by
  obtain ⟨chars, hchars, rfl⟩ := List.mem_map.mp h
  rw [String.toList_ofList]
  exact Text.not_mem_of_mem_splitChars hchars

theorem parts_append (path name : String) :
    parts (path ++ "." ++ name) = parts path ++ parts name := by
  have hchars : (path ++ "." ++ name).toList = path.toList ++ '.' :: name.toList := by simp
  rw [parts, Text.split, hchars, Text.splitChars_append, List.map_append]
  rfl

end Path

namespace Join

/-- A key that stands for one join and has no white space at its ends. -/
structure PlainKey (key : String) : Prop where
  segments : Path.segments key = .ok [key]
  trim : Text.trim key = key

/-- The trimmed parts of a path are plain keys. -/
theorem plainKey_trim {path name : String} {names : List String}
    (h : Path.segments path = .ok names) (hname : name ∈ names) : PlainKey (Text.trim name) := by
  obtain ⟨hvalid, rfl⟩ := Path.segments_eq_ok_iff.mp h
  have hblank : Text.isBlank name = false := by
    rw [Path.isValid, List.all_eq_true] at hvalid
    simpa using hvalid name hname
  have hdot : '.' ∉ (Text.trim name).toList := by
    rw [Text.trim, String.toList_ofList]
    exact fun hmem => Path.not_mem_of_mem_parts hname (Text.mem_of_mem_trimChars hmem)
  have hparts : Path.parts (Text.trim name) = [Text.trim name] := Path.parts_of_not_mem hdot
  refine ⟨Path.segments_eq_ok_iff.mpr ⟨?_, hparts.symm⟩, Text.trim_trim name⟩
  rw [Path.isValid, hparts, List.all_cons, List.all_nil, Bool.and_true, Bool.not_eq_true']
  cases htrim : Text.isBlank (Text.trim name) with
  | false => rfl
  | true =>
    rw [Text.isBlank_of_isBlank_trim htrim] at hblank
    cases hblank

theorem ofPath_of_plainKey {key : String} (h : PlainKey key) (kind : JoinKind) (fetch : Bool) :
    ofPath key kind fetch = .ok { key, kind, fetch } := by
  unfold ofPath
  rw [h.segments]
  simp only [bind, Except.bind, chain, h.trim]
  rfl

end Join

end Criteria
