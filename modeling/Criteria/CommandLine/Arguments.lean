import Criteria.Json.Token
import Criteria.Page
import Criteria.Plan.Basic
import Criteria.Text.Split

/-!
# Arguments

The arguments of the program name a command and give it options. An option is written
`--name=value` or `--name value`; the option `--config` may also stand before the command.

## Main definitions

- `Verb`, `CommandOption`: the commands and the options that each takes
- `CommandOption.read`: the options at the start of a list of arguments
- `Invocation.ofArguments`: the command that the arguments ask for
- `UsageError`: what may be wrong with the arguments
-/

namespace Criteria

/-- The options of the program. -/
inductive CommandOption where
  | config
  | condition
  | scalar
  | documents
  | entity
  | page
  | size
  | sort
  | field
deriving DecidableEq, Repr

namespace CommandOption

def all : List CommandOption :=
  [config, condition, scalar, documents, entity, page, size, sort, field]

def name : CommandOption → String
  | config => "config"
  | condition => "condition"
  | scalar => "scalar"
  | documents => "documents"
  | entity => "entity"
  | page => "page"
  | size => "size"
  | sort => "sort"
  | field => "field"

/-- The option is given without a value. -/
def isFlag : CommandOption → Bool
  | scalar => true
  | _ => false

/-- The option may be given more than once. -/
def isRepeatable : CommandOption → Bool
  | sort | field => true
  | _ => false

/-- An index as a value: digits, with or without a plus sign. -/
def index? (text : String) : Option Nat :=
  let cs := match text.toList with
    | '+' :: rest => rest
    | cs => cs
  match Token.digits? cs with
  | some (digits, []) =>
    let n := Token.ofDigits digits
    if n ≤ maxIndex then some n else none
  | _ => none

/-- A value that the option may have: a file has a name, and a page an index. -/
def admits (o : CommandOption) (value : String) : Bool :=
  match o with
  | config | condition | documents => !value.isEmpty
  | page | size => (index? value).isSome
  | scalar | entity | sort | field => true

end CommandOption

/-- What may be wrong with the arguments. -/
inductive UsageError where
  | missingCommand
  | unexpected (argument : String)
  | missingValue (o : CommandOption)
  | needlessValue (o : CommandOption)
  | unfitValue (o : CommandOption) (value : String)
  | repeated (o : CommandOption)
  | missingOption (o : CommandOption)
deriving DecidableEq, Repr

/-- The wording of a usage error. -/
def UsageError.message : UsageError → String
  | .missingCommand => "a command is missing"
  | .unexpected argument => s!"unexpected argument '{argument}'"
  | .missingValue o => s!"the option '--{o.name}' needs a value"
  | .needlessValue o => s!"the option '--{o.name}' takes no value"
  | .unfitValue o value => s!"the option '--{o.name}' cannot have the value '{value}'"
  | .repeated o => s!"the option '--{o.name}' is given more than once"
  | .missingOption o => s!"the option '--{o.name}' is missing"

/-- An option as it is given, with its value; a flag has an empty one. -/
structure GivenOption where
  option : CommandOption
  value : String
deriving DecidableEq, Repr

namespace CommandOption

/-- An argument that starts with a hyphen and is more than a hyphen. -/
def isDashed (argument : String) : Bool :=
  match argument.toList with
  | '-' :: _ :: _ => true
  | _ => false

/-- The option that an argument names, with the value written after an equals sign. -/
def named? (allowed : List CommandOption) (argument : String) :
    Option (CommandOption × Option String) :=
  match argument.toList with
  | '-' :: '-' :: cs =>
    let (name, value) := Text.cut '=' (String.ofList cs)
    (allowed.find? (·.name = name)).map (·, value)
  | _ => none

/-- An option with a value, if it may have that value. -/
def given (o : CommandOption) (value : String) : Except UsageError GivenOption :=
  if o.admits value then .ok ⟨o, value⟩ else .error (.unfitValue o value)

/-- The options at the start of a list of arguments, and the arguments after them. Two
hyphens alone may end the list. -/
def read (allowed : List CommandOption) :
    List String → Except UsageError (List GivenOption × List String)
  | [] => .ok ([], [])
  | argument :: rest =>
    if argument = "--" && rest.isEmpty then .ok ([], [])
    else if !isDashed argument then .ok ([], argument :: rest)
    else
      match named? allowed argument, rest with
      | none, _ => .error (.unexpected argument)
      | some (o, none), rest =>
        if o.isFlag then do
          let (others, rest) ← read allowed rest
          return (⟨o, ""⟩ :: others, rest)
        else
          match rest with
          | [] => .error (.missingValue o)
          | value :: rest =>
            if isDashed value then .error (.missingValue o)
            else do
              let first ← o.given value
              let (others, rest) ← read allowed rest
              return (first :: others, rest)
      | some (o, some value), rest =>
        if o.isFlag then .error (.needlessValue o)
        else do
          let first ← o.given value
          let (others, rest) ← read allowed rest
          return (first :: others, rest)

/-- No option is given twice that may be given only once. -/
def checkRepeats : List GivenOption → Except UsageError Unit
  | [] => .ok ()
  | g :: rest =>
    if !g.option.isRepeatable && rest.any (·.option = g.option) then
      .error (.repeated g.option)
    else checkRepeats rest

/-- The value of an option, if it is given. -/
def value? (o : CommandOption) (given : List GivenOption) : Option String :=
  (given.find? (·.option = o)).map (·.value)

/-- The values of an option, in order. -/
def values (o : CommandOption) (given : List GivenOption) : List String :=
  (given.filter (·.option = o)).map (·.value)

end CommandOption

/-- The commands. -/
inductive Verb where
  | compile
  | explain
  | query
  | count
  | exist
  | aggregate
deriving DecidableEq, Repr

namespace Verb

def all : List Verb :=
  [compile, explain, query, count, exist, aggregate]

def name : Verb → String
  | compile => "compile"
  | explain => "explain"
  | query => "query"
  | count => "count"
  | exist => "exists"
  | aggregate => "aggregate"

/-- The options that a command takes. -/
def options : Verb → List CommandOption
  | compile | explain => [.config, .condition, .scalar]
  | query => [.config, .condition, .documents, .entity, .page, .size, .sort]
  | count | exist => [.config, .condition, .documents, .entity]
  | aggregate => [.config, .condition, .documents, .entity, .field]

end Verb

/-- The documents that a command asks about. -/
structure Inquiry where
  /-- The file of the condition; without one, the condition is empty. -/
  condition : Option String
  /-- The file of the documents. -/
  documents : String
  /-- The name of the documents in messages. -/
  entity : String
deriving DecidableEq, Repr

/-- A command with its options. -/
inductive Command where
  | compile (condition : Option String) (purpose : Purpose)
  | explain (condition : Option String) (purpose : Purpose)
  | query (inquiry : Inquiry) (page size : Option Nat) (sort : List String)
  | count (inquiry : Inquiry)
  | exist (inquiry : Inquiry)
  | aggregate (inquiry : Inquiry) (fields : List String)
deriving DecidableEq, Repr

/-- A command, and the file of the settings. -/
structure Invocation where
  config : Option String
  command : Command
deriving DecidableEq, Repr

namespace Inquiry

def ofOptions (given : List GivenOption) : Except UsageError Inquiry :=
  match CommandOption.documents.value? given with
  | none => .error (.missingOption .documents)
  | some documents =>
    .ok
      { condition := CommandOption.condition.value? given
        documents
        entity := (CommandOption.entity.value? given).getD "documents" }

end Inquiry

namespace Command

/-- What the plan is compiled for: a number if the flag is given. -/
def purposeOf (given : List GivenOption) : Purpose :=
  if (CommandOption.scalar.value? given).isSome then .number else .documents

/-- The command of a verb and its options. -/
def ofOptions (verb : Verb) (given : List GivenOption) : Except UsageError Command :=
  match verb with
  | .compile => .ok (.compile (CommandOption.condition.value? given) (purposeOf given))
  | .explain => .ok (.explain (CommandOption.condition.value? given) (purposeOf given))
  | .query => do
    let inquiry ← Inquiry.ofOptions given
    return .query inquiry ((CommandOption.page.value? given).bind CommandOption.index?)
      ((CommandOption.size.value? given).bind CommandOption.index?)
      (CommandOption.sort.values given)
  | .count => do
    let inquiry ← Inquiry.ofOptions given
    return .count inquiry
  | .exist => do
    let inquiry ← Inquiry.ofOptions given
    return .exist inquiry
  | .aggregate => do
    let inquiry ← Inquiry.ofOptions given
    match CommandOption.field.values given with
    | [] => .error (.missingOption .field)
    | fields => return .aggregate inquiry fields

end Command

namespace Invocation

/-- What the arguments ask for. Of two settings files the one after the command counts. -/
def ofArguments (arguments : List String) : Except UsageError Invocation := do
  let (before, rest) ← CommandOption.read [.config] arguments
  CommandOption.checkRepeats before
  match rest with
  | [] => .error .missingCommand
  | name :: rest =>
    match Verb.all.find? (·.name = name) with
    | none => .error (.unexpected name)
    | some verb =>
      let (given, rest) ← CommandOption.read verb.options rest
      match rest with
      | argument :: _ => .error (.unexpected argument)
      | [] =>
        CommandOption.checkRepeats given
        let command ← Command.ofOptions verb given
        return ⟨CommandOption.config.value? (given ++ before), command⟩

/-- The files that the invocation names. -/
def files (i : Invocation) : List String :=
  i.config.toList ++
    match i.command with
    | .compile condition _ | .explain condition _ => condition.toList
    | .query inquiry _ _ _ | .count inquiry | .exist inquiry | .aggregate inquiry _ =>
      inquiry.condition.toList ++ [inquiry.documents]

end Invocation

end Criteria
