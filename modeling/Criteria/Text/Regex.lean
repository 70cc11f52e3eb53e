import Criteria.Text.Like

/-!
# Regular expressions

A pattern is tested by a regular expression: `%` becomes `.*`, `_` becomes `.`, every other
character is escaped where it needs to be, and the whole is anchored at both ends. The flag `(?s)`
lets `.` stand for line ends as well. Of the syntax of regular expressions only this part is
described, a sequence of steps after the flag.

## Main definitions

- `likeRegex`: the regular expression of a pattern
- `RegexStep`, `readRegex?`: the steps of a regular expression
- `isFound`: some place of a text matches the steps
- `RegexEngine`: what compiles regular expressions

## Design notes

An expression is looked for at every place of a text. As for patterns, the steps are taken from the
last to the first, and a row of truth values is kept for the suffixes of the text.
-/

namespace Criteria.Text

/-- The characters that stand for themselves after a backslash only. -/
def regexMetas : List Char :=
  ['\\', '.', '+', '*', '?', '(', ')', '|', '[', ']', '{', '}', '^', '$', '#', '&', '-', '~']

/-- The regular expression of a character that stands for itself. -/
def escapeRegex (c : Char) : List Char :=
  if c ∈ regexMetas then ['\\', c] else [c]

/-- The regular expression of one character of a pattern. -/
def likeRegexChar (c : Char) : List Char :=
  if c = '%' then ['.', '*'] else if c = '_' then ['.'] else escapeRegex c

/-- The regular expression of a pattern. -/
def likeRegexChars (pattern : List Char) : List Char :=
  '(' :: '?' :: 's' :: ')' :: '^' :: (pattern.flatMap likeRegexChar ++ ['$'])

/-- The regular expression of a pattern. -/
def likeRegex (pattern : String) : String :=
  String.ofList (likeRegexChars pattern.toList)

/-- A step of a regular expression. -/
inductive RegexStep where
  /-- `^`: here the text starts. -/
  | start
  /-- `$`: here the text ends. -/
  | stop
  /-- `.*`, `.` or a character: a piece of the text. -/
  | piece (part : PatternPart)
deriving DecidableEq, Repr

/-- The steps of a regular expression after its flag. -/
def readSteps? : List Char → Option (List RegexStep)
  | [] => some []
  | '^' :: rest => (readSteps? rest).map (.start :: ·)
  | '$' :: rest => (readSteps? rest).map (.stop :: ·)
  | '.' :: '*' :: rest => (readSteps? rest).map (.piece .anyRun :: ·)
  | '.' :: rest => (readSteps? rest).map (.piece .anyOne :: ·)
  | '\\' :: c :: rest =>
    if c ∈ regexMetas then (readSteps? rest).map (.piece (.one c) :: ·) else none
  | c :: rest =>
    if c ∈ regexMetas then none else (readSteps? rest).map (.piece (.one c) :: ·)

/-- The steps of a regular expression with the flag `(?s)`. -/
def readRegex? : List Char → Option (List RegexStep)
  | '(' :: '?' :: 's' :: ')' :: source => readSteps? source
  | _ => none

/-- The row that keeps the first value only. -/
def firstOnly : List Bool → List Bool
  | [] => []
  | here :: rest => here :: rest.map fun _ => false

/-- The row with one more step in front. -/
def RegexStep.extendRow (text : List Char) : RegexStep → List Bool → List Bool
  | .start, row => firstOnly row
  | .stop, row => List.zipWith (· && ·) (emptyRow text) row
  | .piece part, row => Text.extendRow part text row

/-- For each suffix of a text, the longest first, whether it starts with a match of the steps. -/
def matchesAlong (text : List Char) (steps : List RegexStep) : List Bool :=
  steps.foldr (fun step row => step.extendRow text row) (List.replicate (text.length + 1) true)

/-- The steps have a match at some place of the text. -/
def isFound (steps : List RegexStep) (text : String) : Bool :=
  (matchesAlong text.toList steps).any id

/-- What compiles regular expressions: it gives a test whether an expression is found in a text, or
the reason why the expression cannot be used. -/
structure RegexEngine where
  compile : String → Except String (String → Bool)

/-- The engine for sequences of steps. -/
def RegexEngine.standard : RegexEngine where
  compile source :=
    match readRegex? source.toList with
    | some steps => .ok (isFound steps)
    | none => .error "not a sequence of steps after the flag (?s)"

end Criteria.Text
