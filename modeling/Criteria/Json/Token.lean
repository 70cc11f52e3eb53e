import Criteria.Json.Number

/-!
# JSON tokens

Splits a text into the tokens of JSON. A string that holds an escape of a lone surrogate
and a number beyond the finite range are tokens without a value, since a reader that
skips them need not mind.

## Main definitions

- `Token`: the tokens
- `Token.next?`: the first token of a text that starts with no white space
- `Token.scan`: all tokens up to the first fault
-/

namespace Criteria

/-- A token of JSON. -/
inductive Token where
  | openArray
  | closeArray
  | openObject
  | closeObject
  | comma
  | colon
  | null
  | bool (b : Bool)
  | number (value : Option Number)
  | string (value : Option String)
deriving Repr

namespace Token

/-- White space between tokens. -/
def isGap (c : Char) : Bool :=
  c = ' ' || c = '\n' || c = '\r' || c = '\t'

/-- The value of a hexadecimal digit of either case. -/
def hexValue? (c : Char) : Option Nat :=
  if '0' ≤ c && c ≤ '9' then some (c.toNat - '0'.toNat)
  else if 'a' ≤ c && c ≤ 'f' then some (c.toNat - 'a'.toNat + 10)
  else if 'A' ≤ c && c ≤ 'F' then some (c.toNat - 'A'.toNat + 10)
  else none

/-- The value of a decimal digit. -/
def digitValue? (c : Char) : Option Nat :=
  if '0' ≤ c && c ≤ '9' then some (c.toNat - '0'.toNat) else none

/-- A piece of a string: a character, or a 16-bit unit given by an escape. -/
inductive Piece where
  | char (c : Char)
  | unit (code : Nat)

/-- The character of a simple escape. -/
def simpleEscape? : Char → Option Char
  | '"' => some '"'
  | '\\' => some '\\'
  | '/' => some '/'
  | 'b' => some '\x08'
  | 'f' => some '\x0c'
  | 'n' => some '\n'
  | 'r' => some '\r'
  | 't' => some '\t'
  | _ => none

/-- The 16-bit unit that four hexadecimal digits spell. -/
def unitValue? (a b c d : Char) : Option Nat := do
  return (((← hexValue? a) * 16 + (← hexValue? b)) * 16 + (← hexValue? c)) * 16 + (← hexValue? d)

/-- The pieces of a string up to its closing quote, and the text after that. -/
def pieces? : List Char → Option (List Piece × List Char)
  | [] => none
  | '"' :: rest => some ([], rest)
  | '\\' :: 'u' :: a :: b :: c :: d :: rest => do
    let code ← unitValue? a b c d
    let (following, after) ← pieces? rest
    return (.unit code :: following, after)
  | '\\' :: e :: rest => do
    let c ← simpleEscape? e
    let (following, after) ← pieces? rest
    return (.char c :: following, after)
  | c :: rest =>
    if c.toNat < 0x20 || c = '\\' then none
    else do
      let (following, after) ← pieces? rest
      return (.char c :: following, after)

/-- The characters of pieces: two units of a surrogate pair are one character, and a
surrogate without its partner is none. -/
def joinPieces? : List Piece → Option (List Char)
  | [] => some []
  | .char c :: rest => (joinPieces? rest).map (c :: ·)
  | .unit high :: .unit low :: rest =>
    if 0xD800 ≤ high && high < 0xDC00 then
      if 0xDC00 ≤ low && low < 0xE000 then
        let code := 0x10000 + (high - 0xD800) * 0x400 + (low - 0xDC00)
        (joinPieces? rest).map (Char.ofNat code :: ·)
      else none
    else if 0xDC00 ≤ high && high < 0xE000 then none
    else (joinPieces? (.unit low :: rest)).map (Char.ofNat high :: ·)
  | .unit code :: rest =>
    if 0xD800 ≤ code && code < 0xE000 then none
    else (joinPieces? rest).map (Char.ofNat code :: ·)

/-- The digits at the start of a text, and the text after them. -/
def spanDigits : List Char → List Nat × List Char
  | [] => ([], [])
  | c :: rest =>
    match digitValue? c with
    | some digit =>
      let (digits, after) := spanDigits rest
      (digit :: digits, after)
    | none => ([], c :: rest)

/-- One or more digits. -/
def digits? (cs : List Char) : Option (List Nat × List Char) :=
  match spanDigits cs with
  | ([], _) => none
  | (digits, rest) => some (digits, rest)

/-- The number that decimal digits spell. -/
def ofDigits (digits : List Nat) : Nat :=
  digits.foldl (fun n digit => n * 10 + digit) 0

/-- The digits before the point: a zero alone, or digits that start with no zero. -/
def whole? : List Char → Option (List Nat × List Char)
  | '0' :: rest => some ([0], rest)
  | cs => digits? cs

/-- The digits after a point, if there is a point. -/
def fraction? : List Char → Option (Option (List Nat) × List Char)
  | '.' :: rest => do
    let (digits, after) ← digits? rest
    return (some digits, after)
  | cs => some (none, cs)

/-- The power of ten, if there is one. -/
def exponent? : List Char → Option (Option Int × List Char)
  | e :: rest =>
    if e = 'e' || e = 'E' then
      match rest with
      | '-' :: rest => do
        let (digits, after) ← digits? rest
        return (some (-(ofDigits digits : Int)), after)
      | '+' :: rest => do
        let (digits, after) ← digits? rest
        return (some (ofDigits digits : Int), after)
      | rest => do
        let (digits, after) ← digits? rest
        return (some (ofDigits digits : Int), after)
    else some (none, e :: rest)
  | [] => some (none, [])

/-- A number without its sign. -/
def unsignedNumber? (negative : Bool) (cs : List Char) : Option (NumberText × List Char) := do
  let (whole, cs) ← whole? cs
  let (fraction, cs) ← fraction? cs
  let (exponent, cs) ← exponent? cs
  return (⟨negative, whole, fraction, exponent⟩, cs)

/-- A number. -/
def number? : List Char → Option (NumberText × List Char)
  | '-' :: rest => unsignedNumber? true rest
  | cs => unsignedNumber? false cs

/-- The token at the start of a text, and the text after it. -/
def next? : List Char → Option (Token × List Char)
  | '[' :: rest => some (openArray, rest)
  | ']' :: rest => some (closeArray, rest)
  | '{' :: rest => some (openObject, rest)
  | '}' :: rest => some (closeObject, rest)
  | ',' :: rest => some (comma, rest)
  | ':' :: rest => some (colon, rest)
  | 'n' :: 'u' :: 'l' :: 'l' :: rest => some (null, rest)
  | 't' :: 'r' :: 'u' :: 'e' :: rest => some (bool true, rest)
  | 'f' :: 'a' :: 'l' :: 's' :: 'e' :: rest => some (bool false, rest)
  | '"' :: rest => do
    let (pieces, after) ← pieces? rest
    return (string ((joinPieces? pieces).map String.ofList), after)
  | cs => do
    let (text, after) ← number? cs
    return (number text.value?, after)

/-- The tokens of a text up to the first fault, and the text from there on, which is empty
if there is no fault. Every token is at least one character long, so the length of the
text, given as `fuel`, bounds their number. -/
def scanWithin : Nat → List Char → List Token × List Char
  | 0, cs => ([], cs)
  | fuel + 1, cs =>
    match cs.dropWhile isGap with
    | [] => ([], [])
    | c :: rest =>
      match next? (c :: rest) with
      | none => ([], c :: rest)
      | some (token, after) =>
        let (tokens, remaining) := scanWithin fuel after
        (token :: tokens, remaining)

/-- The tokens of a text up to the first fault, and the text from there on. -/
def scan (cs : List Char) : List Token × List Char :=
  scanWithin (cs.length + 1) cs

end Token

end Criteria
