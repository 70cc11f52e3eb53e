import Criteria.CommandLine.Command
import Criteria.Json.Printer

/-!
# Responses

What the program writes: one line with a JSON object that says how a command went.

## Main definitions

- `Response`: an answer, or the code and the wording of an error
- `Response.text`: the line to write
-/

namespace Criteria

/-- How a command went. -/
inductive Response where
  | ok (data : Json)
  | error (code message : String)
deriving Repr

namespace Response

/-- The response to the outcome of a command. -/
def ofOutcome : Except CommandError Json → Response
  | .ok data => .ok data
  | .error e => .error e.code e.message

def toJson : Response → Json
  | .ok data => .ofFields [("status", .text "ok"), ("data", data)]
  | .error code message =>
    .ofFields [("status", .text "error"), ("code", .text code), ("message", .text message)]

/-- The line to write. -/
def text (r : Response) : String :=
  r.toJson.compact ++ "\n"

/-- The exit code of the program. -/
def exitCode : Response → UInt32
  | .ok _ => 0
  | .error _ _ => 1

end Response

end Criteria
