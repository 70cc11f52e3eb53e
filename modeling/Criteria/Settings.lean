import Criteria.Json.Record
import Criteria.Selection
import Criteria.Text.Blank

/-!
# Settings

Limits of an engine. Each has a default.

## Main definitions

- `PageLimits`, `Settings`: page sizes, the number of bindings and the log filter
- `Settings.check`: whether the limits make sense together
- `Settings.reader`: settings as a document
- `SettingsError`: what may be wrong with settings
-/

namespace Criteria

/-- The size of a page for which no size is asked. -/
def defaultPageSize : Nat := 10

/-- The greatest size that may be asked for a page, unless another limit is set. -/
def defaultMaxPageSize : Nat := 1000

/-- What may be wrong with settings. -/
inductive SettingsError where
  | unreadableFile (path : String) (reason : String)
  | malformed (reason : String)
  | invalid (reason : String)
deriving DecidableEq, Repr

namespace SettingsError

def code : SettingsError → String
  | .unreadableFile _ _ => "CONFIG_READ_FAILED"
  | .malformed _ => "CONFIG_PARSE_FAILED"
  | .invalid _ => "CONFIG_INVALID"

def message : SettingsError → String
  | .unreadableFile path reason => s!"Failed to read config '{path}': {reason}"
  | .malformed reason => s!"Invalid config TOML: {reason}"
  | .invalid reason => reason

def display (e : SettingsError) : String :=
  s!"{e.code}: {e.message}"

end SettingsError

/-- The limits on page sizes. -/
structure PageLimits where
  defaultSize : Nat := defaultPageSize
  maxSize : Nat := defaultMaxPageSize
deriving DecidableEq, Repr

/-- The settings of an engine. -/
structure Settings where
  pages : PageLimits := {}
  /-- The number of bindings that one document may have. -/
  bindingLimit : Nat := defaultBindingLimit
  /-- Which log entries are kept. -/
  logFilter : String := "info"
deriving DecidableEq, Repr

namespace Settings

/-- No limit is zero, the default page size is within the limit, and there is a log
filter. -/
def check (s : Settings) : Except SettingsError Unit :=
  if s.pages.defaultSize = 0 then .error (.invalid "default_page_size must be > 0")
  else if s.pages.maxSize = 0 then .error (.invalid "max_page_size must be > 0")
  else if s.pages.maxSize < s.pages.defaultSize then
    .error (.invalid
      s!"default_page_size ({s.pages.defaultSize}) exceeds max_page_size ({s.pages.maxSize})")
  else if s.bindingLimit = 0 then .error (.invalid "binding_limit must be > 0")
  else if Text.isBlank s.logFilter then .error (.invalid "log_filter must not be empty")
  else .ok ()

def toJson (s : Settings) : Json :=
  .ofFields
    [("pagination", .ofFields
        [("default_page_size", .ofNat s.pages.defaultSize),
         ("max_page_size", .ofNat s.pages.maxSize)]),
     ("execution", .ofFields [("binding_limit", .ofNat s.bindingLimit)]),
     ("log_filter", .text s.logFilter)]

/-- Reads the limits on page sizes; both may be missing. -/
def pagesReader {ω : Type} : Reader ω PageLimits :=
  Reader.record [["default_page_size"], ["max_page_size"]]
    (fun
      | 0, depth, tree => do
        let defaultSize ← Reader.unsigned depth tree
        return fun p => { p with defaultSize }
      | _, depth, tree => do
        let maxSize ← Reader.unsigned depth tree
        return fun p => { p with maxSize })
    {}

/-- Reads the limit on bindings, which may be missing. -/
def bindingLimitReader {ω : Type} : Reader ω Nat :=
  Reader.record [["binding_limit"]]
    (fun _ depth tree => do
      let limit ← Reader.unsigned depth tree
      return fun _ => limit)
    defaultBindingLimit

/-- Reads settings; every part may be missing. -/
def reader {ω : Type} : Reader ω Settings :=
  Reader.record [["pagination"], ["execution"], ["log_filter"]]
    (fun
      | 0, depth, tree => do
        let pages ← pagesReader depth tree
        return fun s => { s with pages }
      | 1, depth, tree => do
        let bindingLimit ← bindingLimitReader depth tree
        return fun s => { s with bindingLimit }
      | _, depth, tree => do
        let logFilter ← Reader.text depth tree
        return fun s => { s with logFilter })
    {}

end Settings

end Criteria
