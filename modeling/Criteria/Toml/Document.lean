import Criteria.Toml.Scalar

/-!
# Reading TOML

## Main definitions

- `value?`: a value, with the arrays and tables in it
- `Toml.parse?`: the entries of a document

## Design notes

A document is read line by line. A header sets the path of the table to which the keys of
the lines below it belong; an array is the only value that may go over several lines.
-/

namespace Criteria.Toml

/-- Skips blanks, comments and line ends between the items of an array. -/
def skipBetween : Nat → List Char → List Char
  | 0, cs => cs
  | fuel + 1, cs =>
    let cs := skipComment (skipBlank cs)
    match newline? cs with
    | some rest => skipBetween fuel rest
    | none => cs

mutual

/-- A value within which values may nest to the given depth. -/
def value? : Nat → Nat → List Char → Option (Toml × List Char)
  | 0, _, _ => none
  | fuel + 1, depth, '[' :: rest =>
    match depth with
    | 0 => none
    | depth + 1 => do
      let (items, rest) ← arrayItems? fuel depth rest
      return (.array items, rest)
  | fuel + 1, depth, '{' :: rest =>
    match depth with
    | 0 => none
    | depth + 1 =>
      match skipBlank rest with
      | '}' :: rest => some (.table .inline [], rest)
      | _ => do
        let (entries, rest) ← inlineEntries? fuel depth [] rest
        return (.table .inline entries, rest)
  | _ + 1, _, cs => scalarValue? cs

/-- The items of an array, after the bracket or comma before the first. -/
def arrayItems? : Nat → Nat → List Char → Option (List Toml × List Char)
  | 0, _, _ => none
  | fuel + 1, depth, cs =>
    match skipBetween cs.length cs with
    | ']' :: rest => some ([], rest)
    | cs => do
      let (item, rest) ← value? fuel depth cs
      match skipBetween rest.length rest with
      | ']' :: rest => return ([item], rest)
      | ',' :: rest => do
        let (items, rest) ← arrayItems? fuel depth rest
        return (item :: items, rest)
      | _ => none

/-- The entries of a table in braces, added to those read before. -/
def inlineEntries? : Nat → Nat → Entries → List Char → Option (Entries × List Char)
  | 0, _, _, _ => none
  | fuel + 1, depth, entries, cs => do
    let ((path, key), rest) ← key? cs
    let rest ← expect? '=' rest
    let (value, rest) ← value? fuel depth (skipBlank rest)
    let entries ← entries.put? path key value
    match skipBlank rest with
    | '}' :: rest => return (entries, rest)
    | ',' :: rest => inlineEntries? fuel depth entries rest
    | _ => none

end

/-- The rest after blanks, a comment that may be missing, and the end of a line. -/
def endLine? (cs : List Char) : Option (List Char) :=
  match skipComment (skipBlank cs) with
  | [] => some []
  | cs => newline? cs

/-- A document as far as it has been read. -/
structure Draft where
  entries : Entries := []
  /-- The path of the table to which keys belong. -/
  header : List String := []

/-- Reads one line. -/
def line? (draft : Draft) (cs : List Char) : Option (Draft × List Char) :=
  match skipBlank cs with
  | '[' :: '[' :: rest => do
    let ((path, key), rest) ← key? rest
    let rest ← expect? ']' rest
    let rest ← expect? ']' rest
    let rest ← endLine? rest
    let entries ← draft.entries.openItem? path key
    return (⟨entries, path ++ [key]⟩, rest)
  | '[' :: rest => do
    let ((path, key), rest) ← key? rest
    let rest ← expect? ']' rest
    let rest ← endLine? rest
    let entries ← draft.entries.openTable? path key
    return (⟨entries, path ++ [key]⟩, rest)
  | cs =>
    match endLine? cs with
    | some rest => some (draft, rest)
    | none => do
      let ((path, key), rest) ← key? cs
      let rest ← expect? '=' rest
      let rest := skipBlank rest
      let (value, rest) ← value? (2 * rest.length + 2) nestingLimit rest
      let rest ← endLine? rest
      let entries ← draft.entries.putUnder? draft.header path key value
      return (⟨entries, draft.header⟩, rest)

/-- Reads lines to the end; `fuel` bounds their number. -/
def lines? : Nat → Draft → List Char → Option Draft
  | _, draft, [] => some draft
  | 0, _, _ => none
  | fuel + 1, draft, cs => do
    let (draft, rest) ← line? draft cs
    lines? fuel draft rest

/-- The text without a byte order mark. -/
def dropMark : List Char → List Char
  | c :: rest => if c = '\uFEFF' then rest else c :: rest
  | [] => []

/-- The entries of a document, unless the text is malformed or gives a key twice. -/
def parse? (text : String) : Option Entries := do
  let cs := dropMark text.toList
  let draft ← lines? (cs.length + 1) {} cs
  return draft.entries

end Criteria.Toml
