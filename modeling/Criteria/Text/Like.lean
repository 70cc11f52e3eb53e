/-!
# Patterns

In a pattern `%` stands for any run of characters, line ends included, `_` for any one
character, and every other character for itself. Nothing escapes the two.

## Main definitions

- `PatternPart`, `patternParts`: a pattern as a list of parts
- `matchesSuffixes`: for each suffix of a text, whether it fits the parts
- `isLike`: a text fits a pattern

## Design notes

The parts are taken from the last to the first. For each a row of truth values is kept, one
for each suffix of the text, so the work is the product of the two lengths.
-/

namespace Criteria.Text

/-- A part of a pattern. -/
inductive PatternPart where
  | anyRun
  | anyOne
  | one (c : Char)
deriving DecidableEq, Repr

def PatternPart.ofChar (c : Char) : PatternPart :=
  if c = '%' then .anyRun else if c = '_' then .anyOne else .one c

/-- The parts of a pattern. -/
def patternParts (pattern : List Char) : List PatternPart :=
  pattern.map .ofChar

/-- The row of the empty list of parts: only the empty suffix fits. -/
def emptyRow : List Char → List Bool
  | [] => [true]
  | _ :: rest => false :: emptyRow rest

/-- The row with one more part in front, from the row without it: one value for each
suffix of the text, the longest first. -/
def extendRow (part : PatternPart) : List Char → List Bool → List Bool
  | [], row =>
    [match part with
      | .anyRun => row.headD false
      | _ => false]
  | c :: rest, row =>
    let following := extendRow part rest row.tail
    let here :=
      match part with
      | .anyRun => row.headD false || following.headD false
      | .anyOne => row.tail.headD false
      | .one d => c == d && row.tail.headD false
    here :: following

/-- For each suffix of a text, the longest first, whether it fits the parts. -/
def matchesSuffixes (text : List Char) (parts : List PatternPart) : List Bool :=
  parts.foldr (fun part row => extendRow part text row) (emptyRow text)

/-- The text fits the pattern. -/
def isLikeChars (text pattern : List Char) : Bool :=
  (matchesSuffixes text (patternParts pattern)).headD false

/-- The text fits the pattern. -/
def isLike (text pattern : String) : Bool :=
  isLikeChars text.toList pattern.toList

end Criteria.Text
