import Criteria.Bindings
import Criteria.Text.Regex

/-!
# Evaluators

An evaluator finds the truth of predicates and keeps the patterns that it has prepared, so a
pattern is prepared once for all bindings of all documents that are held against it.

## Main definitions

- `PatternEngine`: what prepares patterns
- `PatternEngine.ofRegexes`: patterns prepared as regular expressions
- `Evaluator`: the patterns that have been prepared
- `Evaluator.matcher`: the test of a pattern
- `Evaluator.evaluate`: the truth of a predicate
- `Evaluator.countTrue`: the number of bindings that make a predicate true

## Design notes

An engine may refuse a pattern. This comes to light when a comparison needs the pattern, which
it does for a text only, and only if its connectives look at it at all.
-/

namespace Criteria

/-- What prepares patterns: it gives a test of texts, or the reason why a pattern cannot be
used. -/
structure PatternEngine where
  prepare : String → Except String (String → Bool)

/-- The engine that has the regular expressions of patterns compiled. -/
def PatternEngine.ofRegexes (engine : Text.RegexEngine) : PatternEngine where
  prepare pattern := engine.compile (Text.likeRegex pattern)

/-- The engine that refuses no pattern. -/
def PatternEngine.standard : PatternEngine :=
  .ofRegexes .standard

/-- The patterns that have been prepared, with their tests. -/
structure Evaluator where
  prepared : List (String × (String → Bool)) := []

/-- A computation with an evaluator, which may fail. -/
abbrev Evaluating := StateT Evaluator (Except ExecutionError)

namespace Evaluator

variable (engine : PatternEngine)

/-- The test of a pattern, which is prepared unless it is there. -/
def matcher (pattern : String) : Evaluating (String → Bool) := fun e =>
  match e.prepared.lookup pattern with
  | some test => .ok (test, e)
  | none =>
    match engine.prepare pattern with
    | .ok test => .ok (test, { e with prepared := (pattern, test) :: e.prepared })
    | .error reason => .error (.unusablePattern pattern reason)

/-- The truth of a comparison. -/
def compare (s : Scope) : Comparison → Evaluating Truth
  | .like o pattern =>
    match (s.operand? o).bind (·.likeText?) with
    | none => return .unknown
    | some text => do
      let test ← matcher engine pattern
      return .ofBool (test text)
  | c => return c.eval s

mutual

/-- The truth of a predicate. -/
def evaluate (s : Scope) : Predicate → Evaluating Truth
  | .always => return .true
  | .and members => evaluateAll s .true members
  | .or members => evaluateAny s .false members
  | .not member => do
    let truth ← evaluate s member
    return truth.not
  | .compare c => compare engine s c

/-- The conjunction of a truth with those of members, which ends at the first that makes it
false. -/
def evaluateAll (s : Scope) (truth : Truth) : List Predicate → Evaluating Truth
  | [] => return truth
  | member :: rest => do
    let next ← evaluate s member
    match truth.and next with
    | .false => return .false
    | truth => evaluateAll s truth rest

/-- The disjunction of a truth with those of members, which ends at the first that makes it
true. -/
def evaluateAny (s : Scope) (truth : Truth) : List Predicate → Evaluating Truth
  | [] => return truth
  | member :: rest => do
    let next ← evaluate s member
    match truth.or next with
    | .true => return .true
    | truth => evaluateAny s truth rest

end

/-- The number of bindings under which a predicate is true, added to the one so far. -/
def countTrue (predicate : Predicate) (document : Json) (count : Nat) :
    List Binding → Evaluating Nat
  | [] => return count
  | binding :: rest => do
    let truth ← evaluate engine ⟨document, binding⟩ predicate
    countTrue predicate document (if truth.isTrue then count + 1 else count) rest

end Evaluator

end Criteria
