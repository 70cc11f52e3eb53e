import Criteria.Json.Printer
import Criteria.Json.Record
import Criteria.Operator
import Criteria.Text.Split
import Criteria.Time.Reader

/-!
# Values

The values that criteria compare with: scalars, lists, and lists of two as pairs.

## Main definitions

- `Value`: values
- `Value.ofJson`, `Value.toJson`, `Value.reader`: values as documents
- `Value.display`, `Value.pattern`: values as text
- `Value.check`: whether a value is of the kind that an operator expects
-/

namespace Criteria

/-- A value to compare with. Integers are those of 64 bits with a sign. -/
inductive Value where
  | null
  | bool (b : Bool)
  | int (i : Int)
  | float (x : Double)
  | text (s : String)
  | list (items : List Value)
deriving Repr, Inhabited

/-- Why a value is not of the kind that an operator expects. -/
inductive Unfit where
  | expected (what : String) (found : String)
  | notTimestamp (text : String)
  | nullBound
  | listBound
  | negativeSize (size : Int)
deriving Repr, DecidableEq

/-- The wording of an unfit value. -/
def Unfit.reason : Unfit → String
  | .expected what found => s!"expected {what}, found {found}"
  | .notTimestamp text => s!"'{text}' is not a timestamp"
  | .nullBound => "pair bounds must not be null"
  | .listBound => "pair bounds must be single values"
  | .negativeSize size => s!"size must not be negative, found {size}"

namespace Value

/-- An unsigned integer: one beyond the signed integers of 64 bits becomes a
floating-point number. -/
def ofUnsigned (n : Nat) : Value :=
  if n ≤ maxInt64 then .int n else .float (.ofNat n)

/-- A list of a lower and an upper bound. -/
def pair (lower upper : Value) : Value :=
  .list [lower, upper]

def isNull : Value → Bool
  | .null => true
  | _ => false

def isList : Value → Bool
  | .list _ => true
  | _ => false

/-- The value as a floating-point number, if it is a number. -/
def toDouble? : Value → Option Double
  | .int i => some (.ofInt i)
  | .float x => some x
  | _ => none

def toText? : Value → Option String
  | .text s => some s
  | _ => none

def toList? : Value → Option (List Value)
  | .list items => some items
  | _ => none

/-- The lower and upper bound of a pair. -/
def toPair? : Value → Option (Value × Value)
  | .list [lower, upper] => some (lower, upper)
  | _ => none

/-- A JSON number as a value. -/
def ofNumber : Number → Value
  | .int i => if i ≤ maxInt64 then .int i else .float (.ofInt i)
  | .double x => .float x

mutual

/-- A document as a value; an object becomes its own text. -/
def ofJson : Json → Value
  | .null => .null
  | .bool b => .bool b
  | .number n => ofNumber n
  | .text s => .text s
  | .array items => .list (ofItems items)
  | .object fields => .text (Json.compact (.object fields))

def ofItems : List Json → List Value
  | [] => []
  | item :: rest => ofJson item :: ofItems rest

end

mutual

/-- The value as a document; what is not a finite number becomes null. -/
def toJson : Value → Json
  | .null => .null
  | .bool b => .bool b
  | .int i => .ofInt i
  | .float x => .ofDouble x
  | .text s => .text s
  | .list items => .array (toItems items)

def toItems : List Value → List Json
  | [] => []
  | item :: rest => toJson item :: toItems rest

end

mutual

/-- Reads a value; no object is one. -/
def read {ω : Type} : Nat → Tree → Logged ω Mismatch Value
  | _, .null => pure .null
  | _, .bool b => pure (.bool b)
  | _, .number (some n) => pure (ofNumber n)
  | _, .string (some s) => pure (.text s)
  | 0, .array _ => .fail .tooDeep
  | depth + 1, .array trees => do
    let items ← readItems depth trees
    return .list items
  | _, tree => Reader.mismatch tree "a condition value"

def readItems {ω : Type} : Nat → List Tree → Logged ω Mismatch (List Value)
  | _, [] => pure []
  | depth, tree :: rest => do
    let item ← read depth tree
    let items ← readItems depth rest
    return item :: items

end

/-- The reader of values. -/
def reader {ω : Type} : Reader ω Value := read

/-- The written form of a number among values: positional at every size, without a
fraction if it is whole, and a tie goes up. -/
def numberLayout : DecimalLayout where
  tie := .up
  positionalFrom := -400
  positionalTo := 400
  pointZero := false
  notANumber := "NaN"
  infinite := "inf"

/-- A text in single quotes, a quote within it written twice. -/
def quoted (s : String) : List Char :=
  '\'' :: (s.toList.flatMap (fun c => if c = '\'' then ['\'', '\''] else [c]) ++ ['\''])

mutual

/-- The characters of a value in messages and plans. -/
def render : Value → List Char
  | .null => "NULL".toList
  | .bool true => "true".toList
  | .bool false => "false".toList
  | .int i => intText i
  | .float x => x.write numberLayout
  | .text s => quoted s
  | .list items => '(' :: (renderItems items ++ [')'])

/-- Values with commas between them. -/
def renderItems : List Value → List Char
  | [] => []
  | [item] => item.render
  | item :: rest => item.render ++ ',' :: ' ' :: renderItems rest

end

/-- The text of a value in messages and plans. -/
def display (v : Value) : String :=
  String.ofList v.render

/-- The text of a value within a pattern: a text stands for itself. -/
def pattern : Value → String
  | .text s => s
  | v => v.display

mutual

/-- Equality in which numbers are equal as numbers: not-a-number differs from itself and
the two zeros are the same. -/
def same : Value → Value → Bool
  | .null, .null => true
  | .bool a, .bool b => a == b
  | .int a, .int b => a == b
  | .float a, .float b => a.compare? b == some .eq
  | .text a, .text b => a == b
  | .list as, .list bs => sameItems as bs
  | _, _ => false

def sameItems : List Value → List Value → Bool
  | [], [] => true
  | a :: as, b :: bs => same a b && sameItems as bs
  | _, _ => false

end

/-- What a value is called in messages. -/
def kind : Value → String
  | .null => "null"
  | .bool _ => "a boolean"
  | .int _ => "an integer"
  | .float _ => "a float"
  | .text _ => "text"
  | .list [_, _] => "a pair"
  | .list _ => "a list"

/-- Checks that a value is of the expected kind. -/
def check (v : Value) : Expected → Except Unfit Unit
  | .nothing => .ok ()
  | .scalar | .text =>
    if v.isList then .error (.expected "a single value" "a list") else .ok ()
  | .number =>
    match v with
    | .int _ | .float _ => .ok ()
    | _ => .error (.expected "a number" v.kind)
  | .temporal =>
    match v with
    | .int _ | .float _ => .ok ()
    | .text s => if (Timestamp.ofText? s).isSome then .ok () else .error (.notTimestamp s)
    | _ => .error (.expected "a timestamp" v.kind)
  | .list => if v.isList then .ok () else .error (.expected "a list" v.kind)
  | .pair =>
    match v.toPair? with
    | some (lower, upper) =>
      if lower.isNull || upper.isNull then .error .nullBound
      else if lower.isList || upper.isList then .error .listBound
      else .ok ()
    | none => .error (.expected "a [lower, upper] pair" v.kind)
  | .size =>
    match v with
    | .int i => if 0 ≤ i then .ok () else .error (.negativeSize i)
    | _ => .error (.expected "a size" v.kind)

end Value

end Criteria
