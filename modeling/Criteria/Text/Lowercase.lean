import Criteria.Text.CaseTable

/-!
# Lower-casing

Full Unicode lower-casing of a text. Two rules go beyond a map of single characters:
`İ` becomes two characters, and a capital sigma becomes `ς` at the end of a word.

## Main definitions

- `lowerChar`: the lower-case form of one character
- `lowerChars`, `lower`: the lower-case form of a text

## Design notes

A sigma ends a word when the nearest character before it that is not ignorable is cased
and the nearest one after it is not. The characters before the current one are therefore
carried along, nearest first.
-/

namespace Criteria.Text

/-- The code point lies in one of the ranges. -/
def inRanges (ranges : List (Nat × Nat)) (code : Nat) : Bool :=
  ranges.any fun (first, last) => first ≤ code && code ≤ last

/-- The character is an upper-case, lower-case or title-case letter. -/
def isCased (c : Char) : Bool :=
  inRanges casedRanges c.toNat

/-- The character does not interrupt a word when case is looked for. -/
def isCaseIgnorable (c : Char) : Bool :=
  inRanges caseIgnorableRanges c.toNat

/-- The first character that is not ignorable is cased. -/
def startsCased (cs : List Char) : Bool :=
  match cs.dropWhile isCaseIgnorable with
  | [] => false
  | c :: _ => isCased c

/-- The lower-case form of a character outside any word. -/
def lowerChar (c : Char) : List Char :=
  if c.toNat < 0x80 then [c.toLower]
  else if c = '\u0130' then ['i', '\u0307']
  else
    match lowercaseRuns.find? (·.covers c.toNat) with
    | some run => [Char.ofNat (c.toNat + run.shift).toNat]
    | none => [c]

/-- Lower-cases the characters that follow those of `before`, which stand nearest
first. -/
def lowerAfter (before : List Char) : List Char → List Char
  | [] => []
  | c :: rest =>
    let here :=
      if c = 'Σ' then
        if startsCased before && !startsCased rest then ['ς'] else ['σ']
      else lowerChar c
    here ++ lowerAfter (c :: before) rest

/-- The lower-case form of a text given by its characters. -/
def lowerChars (cs : List Char) : List Char :=
  lowerAfter [] cs

/-- The lower-case form of a text. -/
def lower (text : String) : String :=
  String.ofList (lowerChars text.toList)

end Criteria.Text
