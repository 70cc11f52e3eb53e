import Criteria.Json.Token

/-!
# Strings and keys of TOML

Reads strings, keys, blanks and line ends. Each reader takes the text from its first
character on and gives the value and the text after it.

## Main definitions

- `string?`: the four kinds of strings
- `key?`: a dotted key
- `skipBlank`, `newline?`, `skipComment`: what stands between values
-/

namespace Criteria.Toml

/-- White space within a line. -/
def isBlankChar (c : Char) : Bool :=
  c = ' ' || c = '\t'

def skipBlank (cs : List Char) : List Char :=
  cs.dropWhile isBlankChar

/-- A character that may stand in comments and strings: a tab, or no control character. -/
def isPrintable (c : Char) : Bool :=
  c = '\t' || (0x20 ≤ c.toNat && c.toNat != 0x7F)

/-- The rest after a line end, if the text starts with one. -/
def newline? : List Char → Option (List Char)
  | '\n' :: rest => some rest
  | '\r' :: '\n' :: rest => some rest
  | _ => none

/-- The rest without a line end at its start. -/
def dropNewline (cs : List Char) : List Char :=
  (newline? cs).getD cs

/-- Skips blanks and line ends. -/
def skipGaps : List Char → List Char
  | ' ' :: rest => skipGaps rest
  | '\t' :: rest => skipGaps rest
  | '\n' :: rest => skipGaps rest
  | '\r' :: '\n' :: rest => skipGaps rest
  | cs => cs

/-- Skips a comment, if there is one, up to its line end. -/
def skipComment : List Char → List Char
  | '#' :: rest => rest.dropWhile isPrintable
  | cs => cs

/-- The number that hexadecimal digits spell. -/
def hexNumber? (cs : List Char) : Option Nat :=
  cs.foldlM (fun n c => (Token.hexValue? c).map (n * 16 + ·)) 0

/-- The character with a code point, unless that is a surrogate or too great. -/
def scalar? (code : Nat) : Option Char :=
  if code < 0xD800 || (0xE000 ≤ code && code < 0x110000) then some (Char.ofNat code) else none

/-- The character of an escape, after its backslash. -/
def escape? : List Char → Option (Char × List Char)
  | 'b' :: rest => some ('\x08', rest)
  | 't' :: rest => some ('\t', rest)
  | 'n' :: rest => some ('\n', rest)
  | 'f' :: rest => some ('\x0c', rest)
  | 'r' :: rest => some ('\r', rest)
  | '"' :: rest => some ('"', rest)
  | '\\' :: rest => some ('\\', rest)
  | 'u' :: rest => hexEscape? 4 rest
  | 'U' :: rest => hexEscape? 8 rest
  | _ => none
where
  hexEscape? (width : Nat) (cs : List Char) : Option (Char × List Char) :=
    if width ≤ cs.length then do
      let code ← hexNumber? (cs.take width)
      let c ← scalar? code
      return (c, cs.drop width)
    else none

/-- The characters of a string in double quotes on one line, after the first quote. -/
def basicBody? : Nat → List Char → Option (List Char × List Char)
  | 0, _ => none
  | _ + 1, [] => none
  | fuel + 1, c :: rest =>
    if c = '"' then some ([], rest)
    else if c = '\\' then do
      let (c, rest) ← escape? rest
      let (cs, rest) ← basicBody? fuel rest
      return (c :: cs, rest)
    else if isPrintable c then do
      let (cs, rest) ← basicBody? fuel rest
      return (c :: cs, rest)
    else none

/-- The characters of a string in single quotes on one line, after the first quote. -/
def literalBody? : List Char → Option (List Char × List Char)
  | [] => none
  | c :: rest =>
    if c = '\'' then some ([], rest)
    else if isPrintable c then do
      let (cs, rest) ← literalBody? rest
      return (c :: cs, rest)
    else none

/-- The rest after a line end that a backslash hides, without the white space after it. -/
def hiddenLineEnd? (cs : List Char) : Option (List Char) :=
  (newline? (skipBlank cs)).map skipGaps

/-- The characters of a string over several lines, after its opening quotes. From three to
five quotes end it, and those before the last three belong to it. A string in double quotes
has escapes. -/
def linesBody? (quote : Char) : Nat → List Char → Option (List Char × List Char)
  | 0, _ => none
  | _ + 1, [] => none
  | fuel + 1, c :: rest =>
    if c = quote then
      let quotes := (c :: rest).takeWhile (· = quote)
      let after := (c :: rest).dropWhile (· = quote)
      if 6 ≤ quotes.length then none
      else if 3 ≤ quotes.length then some (quotes.drop 3, after)
      else do
        let (cs, rest) ← linesBody? quote fuel after
        return (quotes ++ cs, rest)
    else if c = '\\' && quote = '"' then
      match hiddenLineEnd? rest with
      | some rest => linesBody? quote fuel rest
      | none => do
        let (c, rest) ← escape? rest
        let (cs, rest) ← linesBody? quote fuel rest
        return (c :: cs, rest)
    else if isPrintable c then do
      let (cs, rest) ← linesBody? quote fuel rest
      return (c :: cs, rest)
    else do
      let rest ← newline? (c :: rest)
      let (cs, rest) ← linesBody? quote fuel rest
      return ('\n' :: cs, rest)

/-- A string on one line. -/
def lineString? : List Char → Option (String × List Char)
  | '"' :: rest => ofChars (basicBody? (rest.length + 1) rest)
  | '\'' :: rest => ofChars (literalBody? rest)
  | _ => none
where
  ofChars (read : Option (List Char × List Char)) : Option (String × List Char) :=
    read.map fun (cs, rest) => (String.ofList cs, rest)

/-- A string of any kind. A line end after the opening quotes of a string over several lines
does not belong to it. -/
def string? : List Char → Option (String × List Char)
  | '"' :: '"' :: '"' :: rest =>
    lineString?.ofChars (linesBody? '"' (rest.length + 1) (dropNewline rest))
  | '\'' :: '\'' :: '\'' :: rest =>
    lineString?.ofChars (linesBody? '\'' (rest.length + 1) (dropNewline rest))
  | cs => lineString? cs

/-- A character of a key without quotes. -/
def isBareChar (c : Char) : Bool :=
  c.isAlphanum || c = '-' || c = '_'

/-- One part of a key. -/
def keyPart? (cs : List Char) : Option (String × List Char) :=
  match cs.takeWhile isBareChar with
  | [] => lineString? cs
  | part => some (String.ofList part, cs.dropWhile isBareChar)

/-- How many parts a key may have, and how deep values may nest. -/
def nestingLimit : Nat := 79

/-- The parts of a dotted key, at most so many, with blanks around each. -/
def keyParts? : Nat → List Char → Option (List String × List Char)
  | 0, _ => none
  | count + 1, cs => do
    let (part, rest) ← keyPart? (skipBlank cs)
    match skipBlank rest with
    | '.' :: rest => do
      let (parts, rest) ← keyParts? count rest
      return (part :: parts, rest)
    | rest => return ([part], rest)

/-- A dotted key: the parts before the last, and the last. -/
def key? (cs : List Char) : Option ((List String × String) × List Char) := do
  let (parts, rest) ← keyParts? nestingLimit cs
  let last ← parts.getLast?
  return ((parts.dropLast, last), rest)

end Criteria.Toml
