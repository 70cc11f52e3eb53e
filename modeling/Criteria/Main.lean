import Criteria.CommandLine.Response

/-!
# The program

Reads the arguments and the files that they name, writes one line with the response, and
writes an error to the error channel too.
-/

namespace Criteria.Program

/-- Why a file cannot be read. -/
def reasonOf : IO.Error → String
  | .noFileOrDirectory _ code _ => s!"No such file or directory (os error {code})"
  | .permissionDenied _ code _ => s!"Permission denied (os error {code})"
  | .inappropriateType _ code _ => s!"Is a directory (os error {code})"
  | .userError detail => detail
  | e => toString e

/-- The contents of a file. -/
def read (name : String) : IO (Except String String) := do
  try
    let bytes ← IO.FS.readBinFile name
    match String.fromUTF8? bytes with
    | some text => return .ok text
    | none => return .error "stream did not contain valid UTF-8"
  catch e => return .error (reasonOf e)

/-- The contents of several files. -/
def readAll : List String → IO (List (String × Except String String))
  | [] => return []
  | name :: rest => do
    let content ← read name
    let others ← readAll rest
    return (name, content) :: others

/-- The files that have been read. -/
def filesOf (contents : List (String × Except String String)) : Files := fun name =>
  (contents.lookup name).getD (.error "No such file or directory (os error 2)")

/-- Runs the program. -/
def run (arguments : List String) : IO UInt32 := do
  match Invocation.ofArguments arguments with
  | .error e =>
    IO.eprintln s!"error: {e.message}"
    return 2
  | .ok invocation =>
    let contents ← readAll invocation.files
    let outcome := (invocation.run (filesOf contents)).outcome
    let response := Response.ofOutcome outcome
    IO.print response.text
    match outcome with
    | .ok _ => pure ()
    | .error e => IO.eprintln e.display
    return response.exitCode

end Criteria.Program

def main (arguments : List String) : IO UInt32 :=
  Criteria.Program.run arguments
