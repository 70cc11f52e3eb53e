/-!
# Blank text

White space in the sense of the Unicode property `White_Space`, which has more members
than the ASCII blanks and does not hold the zero-width space U+200B.

## Main definitions

- `isSpace`: the property of one character
- `isBlank`: a text of white space only
- `trim`: a text without the white space at its two ends
-/

namespace Criteria.Text

/-- The character has the property `White_Space`. -/
def isSpace (c : Char) : Bool :=
  let code := c.toNat
  (0x09 ≤ code && code ≤ 0x0D) || code == 0x20 || code == 0x85 || code == 0xA0 ||
  code == 0x1680 || (0x2000 ≤ code && code ≤ 0x200A) || code == 0x2028 ||
  code == 0x2029 || code == 0x202F || code == 0x205F || code == 0x3000

/-- Nothing but white space; the empty text is blank. -/
def isBlank (text : String) : Bool :=
  text.toList.all isSpace

/-- The characters without the white space at the two ends. -/
def trimChars (cs : List Char) : List Char :=
  ((cs.dropWhile isSpace).reverse.dropWhile isSpace).reverse

/-- The text without the white space at its two ends. -/
def trim (text : String) : String :=
  String.ofList (trimChars text.toList)

/-- Trimming a blank text leaves nothing. -/
theorem trimChars_of_all_isSpace {cs : List Char} (h : cs.all isSpace = true) :
    trimChars cs = [] := by
  have : cs.dropWhile isSpace = [] := by
    induction cs with
    | nil => rfl
    | cons c cs ih =>
      simp only [List.all_cons, Bool.and_eq_true] at h
      simp [List.dropWhile, h.1, ih h.2]
  simp [trimChars, this]

end Criteria.Text
