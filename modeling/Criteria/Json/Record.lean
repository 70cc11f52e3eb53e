import Criteria.Json.Tree
import Criteria.Logged

/-!
# Reading records

Reads values of known types from JSON syntax. A record is an object, or an array of its
fields in the declared order of which the last may be missing; an enumeration is the name
of a case, or an object with that name as its only key and null as its value.

## Main definitions

- `Mismatch`: why a tree is not of the type asked for
- `Reader`: a reader of one type
- `Reader.list`, `Reader.optional`, `Reader.record`, `Reader.name`: readers of composite
  types
- `Reader.readText`: a reader at work on a text

## Design notes

Only what is read has to have a value: the value of an unknown field is skipped, whatever
strings and numbers it holds and however deep it nests.
-/

namespace Criteria

/-- Why a tree is not of the type asked for. -/
inductive Mismatch where
  | malformed
  | tooDeep
  | expected (what : String)
  | missingField (name : String)
  | repeatedField (name : String)
  | tooManyFields
  | unknownName (name : String)
  | refused (reason : String)
deriving Repr, DecidableEq

/-- The wording of a mismatch. -/
def Mismatch.reason : Mismatch → String
  | .malformed => "malformed text"
  | .tooDeep => "nesting too deep"
  | .expected what => s!"expected {what}"
  | .missingField name => s!"missing field '{name}'"
  | .repeatedField name => s!"repeated field '{name}'"
  | .tooManyFields => "too many fields"
  | .unknownName name => s!"unknown name '{name}'"
  | .refused reason => reason

/-- Reads a tree within which arrays and objects may nest to the given depth. -/
abbrev Reader (ω α : Type) := Nat → Tree → Logged ω Mismatch α

namespace Reader

variable {ω α σ : Type}

/-- A mismatch; where the text is at fault, that is the reason. -/
def mismatch (tree : Tree) (what : String) : Logged ω Mismatch α :=
  match tree with
  | .fault => .fail .malformed
  | _ => .fail (.expected what)

def bool : Reader ω Bool
  | _, .bool b => pure b
  | _, tree => mismatch tree "a boolean"

def text : Reader ω String
  | _, .string (some s) => pure s
  | _, tree => mismatch tree "text"

/-- An unsigned integer of 64 bits. -/
def unsigned : Reader ω Nat
  | _, .number (some n) =>
    match n.toUInt64? with
    | some i => pure i
    | none => .fail (.expected "an unsigned integer")
  | _, tree => mismatch tree "an unsigned integer"

/-- A value or null. -/
def optional (reader : Reader ω α) : Reader ω (Option α)
  | _, .null => pure none
  | depth, tree => do
    let a ← reader depth tree
    return some a

/-- The items of an array, in order. -/
def items (reader : Reader ω α) (depth : Nat) : List Tree → Logged ω Mismatch (List α)
  | [] => pure []
  | tree :: rest => do
    let a ← reader depth tree
    let as ← items reader depth rest
    return a :: as

/-- An array of values of one type. -/
def list (reader : Reader ω α) : Reader ω (List α)
  | 0, .array _ => .fail .tooDeep
  | depth + 1, .array trees => items reader depth trees
  | _, tree => mismatch tree "a list"

/-- The name of a case of an enumeration. -/
def name : Reader ω String
  | _, .string (some s) => pure s
  | 0, .object _ => .fail .tooDeep
  | _ + 1, .object [(some s, .null)] => pure s
  | _, tree => mismatch tree "a name"

/-- A case of an enumeration, by its name. -/
def case (find? : String → Option α) : Reader ω α := fun depth tree => do
  let s ← name depth tree
  match find? s with
  | some a => return a
  | none => .fail (.unknownName s)

/-- Reads the fields of an object into a draft of the record. `names` holds the accepted
spellings of each declared field, and `seen` the fields met before. -/
def namedFields (names : List (List String)) (set : Nat → Reader ω (σ → σ)) (depth : Nat) :
    List Nat → σ → List (Option String × Tree) → Logged ω Mismatch σ
  | _, draft, [] => pure draft
  | _, _, (none, _) :: _ => .fail .malformed
  | seen, draft, (some key, tree) :: rest =>
    match names.findIdx? (·.contains key) with
    | none =>
      if tree.isWhole then namedFields names set depth seen draft rest
      else .fail .malformed
    | some i =>
      if seen.contains i then .fail (.repeatedField key)
      else do
        let change ← set i depth tree
        namedFields names set depth (i :: seen) (change draft) rest

/-- Reads fields that stand in the declared order from the `i`-th on into a draft of the
record. -/
def placedFields (count : Nat) (set : Nat → Reader ω (σ → σ)) (depth : Nat) :
    Nat → σ → List Tree → Logged ω Mismatch σ
  | _, draft, [] => pure draft
  | i, draft, tree :: rest =>
    if i < count then do
      let change ← set i depth tree
      placedFields count set depth (i + 1) (change draft) rest
    else .fail .tooManyFields

/-- A record: each field that is present changes a draft, in the order of the text. -/
def record (names : List (List String)) (set : Nat → Reader ω (σ → σ)) (draft : σ) :
    Reader ω σ
  | 0, .object _ => .fail .tooDeep
  | depth + 1, .object fields => namedFields names set depth [] draft fields
  | 0, .array _ => .fail .tooDeep
  | depth + 1, .array trees => placedFields names.length set depth 0 draft trees
  | _, tree => mismatch tree "a record"

/-- The value of a field that has no default. -/
def require (field : String) : Option α → Logged ω Mismatch α
  | some a => pure a
  | none => .fail (.missingField field)

/-- A reader at work on a whole text. -/
def onText (reader : Reader ω α) (text : String) : Logged ω Mismatch α := do
  let (tree, whole) := Tree.parse text
  let a ← reader maxDepth tree
  if whole then return a else .fail .malformed

/-- A reader at work on a document. -/
def onJson (reader : Reader ω α) (j : Json) : Logged ω Mismatch α :=
  reader maxDepth (.ofJson j)

end Reader

/-- A mismatch in a text, with the place where the value of the text starts. -/
structure ReadError where
  mismatch : Mismatch
  line : Nat
  column : Nat
deriving Repr, DecidableEq

/-- The line and column of the first character that is no gap, both counted from one. -/
def startOfValue : Nat → Nat → List Char → Nat × Nat
  | line, column, [] => (line, column)
  | line, column, c :: rest =>
    if c = '\n' then startOfValue (line + 1) 1 rest
    else if Token.isGap c then startOfValue line (column + 1) rest
    else (line, column)

/-- A mismatch met in a text. -/
def ReadError.within (text : String) (mismatch : Mismatch) : ReadError :=
  let (line, column) := startOfValue 1 1 text.toList
  ⟨mismatch, line, column⟩

/-- The wording of a read error. -/
def ReadError.message (e : ReadError) : String :=
  s!"{e.mismatch.reason}, in the value at line {e.line} column {e.column}"

/-- The value of a text, with errors that name the place. -/
def Reader.readText {ω α : Type} (reader : Reader ω α) (text : String) :
    Logged ω ReadError α :=
  (reader.onText text).mapError (ReadError.within text)

/-- Any document. -/
def Reader.json {ω : Type} : Reader ω Json := fun depth tree =>
  match tree.toJson? depth with
  | some j => pure j
  | none => if tree.isWhole then .fail (.expected "a document") else .fail .malformed

end Criteria
