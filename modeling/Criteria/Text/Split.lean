/-!
# Splitting and joining text

## Main definitions

- `splitChars`, `split`: the parts of a text between the occurrences of a separator
- `joinChars`: parts with a separator between them

## Main statements

- `joinChars_splitChars`: nothing is lost by splitting
-/

namespace Criteria.Text

/-- The parts of a text between the occurrences of a separator, one more than there are
separators. -/
def splitChars (sep : Char) : List Char → List (List Char)
  | [] => [[]]
  | c :: rest =>
    if c = sep then [] :: splitChars sep rest
    else
      match splitChars sep rest with
      | [] => [[c]]
      | part :: parts => (c :: part) :: parts

/-- The parts of a text between the occurrences of a separator. -/
def split (sep : Char) (text : String) : List String :=
  (splitChars sep text.toList).map String.ofList

/-- Parts with a separator between them. -/
def joinChars (sep : List Char) : List (List Char) → List Char
  | [] => []
  | [part] => part
  | part :: parts => part ++ sep ++ joinChars sep parts

/-- Texts with a separator between them. -/
def join (sep : String) (parts : List String) : String :=
  String.ofList (joinChars sep.toList (parts.map String.toList))

/-- The text before the first occurrence of a separator, and the text after it if there is
one. -/
def cutChars (sep : Char) : List Char → List Char × Option (List Char)
  | [] => ([], none)
  | c :: rest =>
    if c = sep then ([], some rest)
    else
      let (before, after) := cutChars sep rest
      (c :: before, after)

/-- The text before the first occurrence of a separator, and the text after it if there is
one. -/
def cut (sep : Char) (text : String) : String × Option String :=
  let (before, after) := cutChars sep text.toList
  (String.ofList before, after.map String.ofList)

theorem splitChars_ne_nil (sep : Char) (cs : List Char) : splitChars sep cs ≠ [] := by
  cases cs with
  | nil => simp [splitChars]
  | cons c rest =>
    simp only [splitChars]
    split
    · simp
    · split <;> simp

/-- Joining the parts with the separator gives the text back. -/
theorem joinChars_splitChars (sep : Char) (cs : List Char) :
    joinChars [sep] (splitChars sep cs) = cs := by
  induction cs with
  | nil => rfl
  | cons c rest ih =>
    simp only [splitChars]
    split
    · rename_i h
      cases hs : splitChars sep rest with
      | nil => exact absurd hs (splitChars_ne_nil sep rest)
      | cons part parts => rw [hs] at ih; simp [joinChars, ih, h]
    · cases hs : splitChars sep rest with
      | nil => exact absurd hs (splitChars_ne_nil sep rest)
      | cons part parts =>
        rw [hs] at ih
        cases parts with
        | nil => simpa [joinChars] using ih
        | cons part' parts' => simpa [joinChars] using ih

end Criteria.Text
