import Criteria.CommandLine.Arguments
import Criteria.Plan.Explanation
import Criteria.Settings.Toml
import Criteria.Store

/-!
# Commands

## Main definitions

- `CommandError`: why a command has no answer
- `SortField.ofArgument`, `Aggregate.ofArgument`: fields as they are written in arguments
- `Command.run`, `Invocation.run`: the answer of a command

## Design notes

A command sees the files only through a function from names to contents, so a run is a
value. The settings are read first, then the arguments that have a syntax of their own,
then the condition and last the documents; of two faults the first met counts.
-/

namespace Criteria

/-- The contents of a file, or the reason why it cannot be read. -/
abbrev Files := String → Except String String

/-- Why a command has no answer. -/
inductive CommandError where
  | config (detail : String)
  | unreadable (detail : String)
  | invalidInput (detail : String)
  | condition (e : ConditionError)
  | query (e : QueryError)
deriving DecidableEq, Repr

namespace CommandError

def code : CommandError → String
  | .config _ => "CLI_CONFIG_ERROR"
  | .unreadable _ => "CLI_IO_ERROR"
  | .invalidInput _ => "CLI_INVALID_INPUT"
  | .condition e => e.code
  | .query e => e.code

def message : CommandError → String
  | .config detail => detail
  | .unreadable detail => detail
  | .invalidInput detail => detail
  | .condition e => e.message
  | .query e => e.message

def display (e : CommandError) : String :=
  s!"{e.code}: {e.message}"

/-- An error of the settings. -/
def ofSettings (e : SettingsError) : CommandError :=
  .config e.display

end CommandError

/-- A field to sort by, written as a path, or as a path and a direction after a colon. -/
def SortField.ofArgument (text : String) : Except CommandError SortField :=
  let (field, direction) := Text.cut ':' text
  if Text.isBlank field then .error (.invalidInput s!"empty sort field in '{text}'")
  else
    .ok ⟨Text.trim field,
      match direction with
      | none => .ascending
      | some direction => .ofText direction⟩

/-- An aggregate, written as a kind, a path and a title with colons between them. The title
may be missing, and in a count of rows the path may be missing too. -/
def Aggregate.ofArgument (text : String) : Except CommandError Aggregate :=
  let (kindName, after) := Text.cut ':' text
  match AggregateKind.ofText? kindName with
  | none => .error (.invalidInput s!"unknown aggregation '{kindName}'")
  | some kind =>
    match after with
    | none =>
      if kind = .count then .ok countRows
      else .error (.invalidInput s!"aggregation '{text}' needs a field path")
    | some after =>
      let (path, title) := Text.cut ':' after
      if Text.isBlank path then
        .error (.invalidInput s!"aggregation '{text}' needs a field path")
      else
        let title := (title.filter fun t => !Text.isBlank t).map Text.trim
        .ok { field := Text.trim path, kind, title }

/-- The items of a list, each read, up to the first fault. -/
def CommandError.readAll {α : Type} (read : String → Except CommandError α) :
    List String → Except CommandError (List α)
  | [] => .ok []
  | text :: rest => do
    let a ← read text
    let as ← readAll read rest
    return a :: as

/-- The request for a page; without a page, a size and a field to sort by there is none. -/
def Settings.pageRequest (s : Settings) (page size : Option Nat) (sort : List String) :
    Except CommandError (Option PageRequest) :=
  if page.isNone && size.isNone && sort.isEmpty then .ok none
  else do
    let sortFields ← CommandError.readAll SortField.ofArgument sort
    return some
      { number := page.getD 0, size := size.getD s.pages.defaultSize, sortFields }

namespace Files

/-- The text of a file. -/
def text (files : Files) (name : String) : Except CommandError String :=
  (files name).mapError fun reason => .unreadable s!"Failed to read {name}: {reason}"

/-- The condition in a file; the empty condition without one. -/
def condition (files : Files) : Option String → Reporting CommandError Condition
  | none => pure {}
  | some name => do
    let text ← Logged.ofExcept (files.text name)
    (Condition.ofText text).reportingMerges.mapError .condition

/-- The documents in a file. -/
def documents (files : Files) (name : String) : Except CommandError (List Json) := do
  let text ← files.text name
  if Text.isBlank text then .error (.invalidInput s!"{name} is empty")
  else
    match (Reader.readText (ω := Empty) Reader.json text).outcome with
    | .ok value => return Store.listedDocuments value
    | .error e => .error (.invalidInput s!"{name}: {e.message}")

/-- The condition and the store that a command asks about. -/
def inquire (files : Files) (settings : Settings) (i : Inquiry) :
    Reporting CommandError (Condition × Store) := do
  let condition ← files.condition i.condition
  let documents ← Logged.ofExcept (files.documents i.documents)
  return (condition, { entity := i.entity, documents, settings })

end Files

namespace Command

/-- The answer of a command. -/
def run (settings : Settings) (files : Files) : Command → Reporting CommandError Json
  | .compile condition purpose => do
    let c ← files.condition condition
    let plan ← (c.compileReporting purpose).mapError .condition
    return plan.toJson
  | .explain condition purpose => do
    let c ← files.condition condition
    Logged.note (c.compileEvents purpose)
    let explanation := Explanation.ofOutcome (c.compile purpose)
    return .ofFields [("plan", explanation.toJson), ("text", .text explanation.display)]
  | .query inquiry page size sort => do
    let request ← Logged.ofExcept (settings.pageRequest page size sort)
    let (c, store) ← files.inquire settings inquiry
    let page ← (store.findPage c request).mapError .query
    return page.toJson
  | .count inquiry => do
    let (c, store) ← files.inquire settings inquiry
    let n ← (store.count c).mapError .query
    return .ofFields [("count", .ofNat n)]
  | .exist inquiry => do
    let (c, store) ← files.inquire settings inquiry
    let found ← (store.holds c).mapError .query
    return .ofFields [("exists", .bool found)]
  | .aggregate inquiry fields => do
    let aggregates ← Logged.ofExcept (CommandError.readAll Aggregate.ofArgument fields)
    let (c, store) ← files.inquire settings inquiry
    let row ← (store.aggregate c aggregates).mapError .query
    return .ofFields row

end Command

/-- The answer of an invocation. -/
def Invocation.run (files : Files) (i : Invocation) : Reporting CommandError Json := do
  let settings ←
    match i.config with
    | none => pure {}
    | some name => (Settings.load name (files name)).mapError .ofSettings
  i.command.run settings files

end Criteria
