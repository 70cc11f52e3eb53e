import Criteria.Json.Token
import Criteria.Json.Basic

/-!
# JSON syntax trees

What stands in a JSON text, before it is read as a document or as a record: repeated keys
and their order are kept, and strings and numbers without a value are allowed. A text
that stops being JSON gives the tree of what stands before the fault, with a mark in the
place of the fault, so that a reader which works in the order of the text sees exactly
what it would see before it meets the fault.

## Main definitions

- `Tree`: syntax trees
- `Tree.Frame`, `Tree.Phase`: an open array or object, and what may follow
- `Tree.ofTokens`: the tree of a list of tokens
- `Tree.parse`: the tree of a text, and whether the text is JSON
- `Tree.ofJson`: the tree of a document

## Design notes

The tree is built by one pass over the tokens with a stack of open arrays and objects.
The recursion is on the list of tokens, so nesting of any depth is read.
-/

namespace Criteria

/-- The syntax of a JSON text. -/
inductive Tree where
  | null
  | bool (b : Bool)
  | number (value : Option Number)
  | string (value : Option String)
  | array (items : List Tree)
  | object (fields : List (Option String × Tree))
  | fault
deriving Repr, Inhabited

namespace Tree

/-- An array or object that is still open, with its parts in reverse. -/
inductive Frame where
  | items (before : List Tree)
  | fields (before : List (Option String × Tree))
  | field (before : List (Option String × Tree)) (key : Option String)

/-- What may follow the tokens read so far. -/
inductive Phase where
  /-- A value, or the end of the innermost array if `mayClose`. -/
  | value (mayClose : Bool)
  /-- A key, or the end of the innermost object if `mayClose`. -/
  | key (mayClose : Bool)
  /-- The colon after a key. -/
  | colon
  /-- A comma, or the end of the innermost array or object. -/
  | separator
  /-- Nothing: the tree is complete. -/
  | done (tree : Tree)

/-- Puts a complete value in its place. -/
def plug (tree : Tree) : List Frame → Option (List Frame × Phase)
  | [] => some ([], .done tree)
  | .items before :: frames => some (.items (tree :: before) :: frames, .separator)
  | .field before key :: frames => some (.fields ((key, tree) :: before) :: frames, .separator)
  | .fields _ :: _ => none

/-- Reads one token where a value may stand. -/
def startValue (mayClose : Bool) (frames : List Frame) :
    Token → Option (List Frame × Phase)
  | .null => plug .null frames
  | .bool b => plug (.bool b) frames
  | .number n => plug (.number n) frames
  | .string s => plug (.string s) frames
  | .openArray => some (.items [] :: frames, .value true)
  | .openObject => some (.fields [] :: frames, .key true)
  | .closeArray =>
    match mayClose, frames with
    | true, .items before :: outer => plug (.array before.reverse) outer
    | _, _ => none
  | _ => none

/-- Reads one token; undefined where the token is a fault. -/
def step (frames : List Frame) : Phase → Token → Option (List Frame × Phase)
  | .value mayClose, token => startValue mayClose frames token
  | .key mayClose, token =>
    match token, frames with
    | .string key, .fields before :: outer => some (.field before key :: outer, .colon)
    | .closeObject, .fields before :: outer =>
      if mayClose then plug (.object before.reverse) outer else none
    | _, _ => none
  | .colon, .colon => some (frames, .value false)
  | .colon, _ => none
  | .separator, token =>
    match token, frames with
    | .comma, .items _ :: _ => some (frames, .value false)
    | .comma, .fields _ :: _ => some (frames, .key false)
    | .closeArray, .items before :: outer => plug (.array before.reverse) outer
    | .closeObject, .fields before :: outer => plug (.object before.reverse) outer
    | _, _ => none
  | .done _, _ => none

/-- Closes all open arrays and objects around a tree that is the last part of the
innermost. -/
def closeAround (tree : Tree) : List Frame → Tree
  | [] => tree
  | .items before :: frames => closeAround (.array (before.reverse ++ [tree])) frames
  | .field before key :: frames =>
    closeAround (.object (before.reverse ++ [(key, tree)])) frames
  | .fields before :: frames =>
    closeAround (.object (before.reverse ++ [(none, tree)])) frames

/-- The tree of a list of tokens, whether it holds no fault, and the tokens from the fault
on. -/
def ofTokens (frames : List Frame) (phase : Phase) : List Token → Tree × Bool × List Token
  | [] =>
    match phase with
    | .done tree => (tree, true, [])
    | _ => (closeAround .fault frames, false, [])
  | token :: rest =>
    match step frames phase token with
    | some (frames, phase) => ofTokens frames phase rest
    | none =>
      match phase with
      | .done tree => (tree, false, token :: rest)
      | _ => (closeAround .fault frames, false, token :: rest)

/-- The tree of a text, and whether the text is JSON. -/
def parse (text : String) : Tree × Bool :=
  let (tokens, remaining) := Token.scan text.toList
  let (tree, whole, _) := ofTokens [] (.value false) tokens
  (tree, whole && remaining.isEmpty)

mutual

/-- The tree holds no fault. -/
def isWhole : Tree → Bool
  | .fault => false
  | .array items => areWhole items
  | .object fields => fieldsAreWhole fields
  | _ => true

def areWhole : List Tree → Bool
  | [] => true
  | tree :: rest => tree.isWhole && areWhole rest

def fieldsAreWhole : List (Option String × Tree) → Bool
  | [] => true
  | (_, tree) :: rest => tree.isWhole && fieldsAreWhole rest

end

mutual

/-- The tree of a document. -/
def ofJson : Json → Tree
  | .null => .null
  | .bool b => .bool b
  | .number n => .number (some n)
  | .text s => .string (some s)
  | .array items => .array (ofItems items)
  | .object fields => .object (ofFields fields)

def ofItems : List Json → List Tree
  | [] => []
  | item :: rest => ofJson item :: ofItems rest

def ofFields : List (String × Json) → List (Option String × Tree)
  | [] => []
  | (key, value) :: rest => (some key, ofJson value) :: ofFields rest

end

mutual

/-- The document of a tree whose arrays and objects nest at most `depth` deep, in which
every string and number has a value. -/
def toJson? (depth : Nat) : Tree → Option Json
  | .null => some .null
  | .bool b => some (.bool b)
  | .number n => n.map .number
  | .string s => s.map .text
  | .array items =>
    match depth with
    | 0 => none
    | depth + 1 => (toItems? depth items).map .array
  | .object fields =>
    match depth with
    | 0 => none
    | depth + 1 => (toFields? depth fields).map Json.ofFields
  | .fault => none

def toItems? (depth : Nat) : List Tree → Option (List Json)
  | [] => some []
  | tree :: rest => do
    let item ← toJson? depth tree
    let items ← toItems? depth rest
    return item :: items

def toFields? (depth : Nat) : List (Option String × Tree) → Option (List (String × Json))
  | [] => some []
  | (key, tree) :: rest => do
    let key ← key
    let value ← toJson? depth tree
    let fields ← toFields? depth rest
    return (key, value) :: fields

end

end Tree

/-- How deep arrays and objects may nest in a document. -/
def maxDepth : Nat := 127

/-- The document that a text denotes. -/
def Json.parse? (text : String) : Option Json :=
  match Tree.parse text with
  | (tree, true) => tree.toJson? maxDepth
  | (_, false) => none

end Criteria
