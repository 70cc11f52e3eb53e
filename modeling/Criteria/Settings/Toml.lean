import Criteria.Event
import Criteria.Settings
import Criteria.Toml.Document

/-!
# Settings as TOML

## Main definitions

- `Settings.ofToml`: checked settings from a text
- `Settings.load`: checked settings from a file

## Design notes

A group of settings is a table. It may also be an array of its settings in their order, and
a moment in time counts as a table without entries. Settings that are missing keep their
defaults, and keys that name no setting are skipped.
-/

namespace Criteria

namespace Settings

/-- An integer that is not negative. -/
def unsigned? : Toml → Option Nat
  | .int i => if 0 ≤ i then some i.toNat else none
  | _ => none

/-- A text. -/
def text? : Toml → Option String
  | .text s => some s
  | _ => none

/-- The values of the named settings of a group, in order, as far as they are given. -/
def members? (names : List String) : Toml → Option (List (Option Toml))
  | .table _ entries => some (names.map (Toml.Entries.get? · entries))
  | .array items => some ((List.range names.length).map (items[·]?))
  | .moment => some (names.map fun _ => none)
  | _ => none

/-- A setting, by default if it is not given. -/
def orDefault? {α : Type} (read? : Toml → Option α) (default : α) : Option Toml → Option α
  | none => some default
  | some value => read? value

/-- The limits on page sizes. -/
def pages? (value : Toml) : Option PageLimits := do
  match ← members? ["default_page_size", "max_page_size"] value with
  | [defaultSize, maxSize] => do
    let defaultSize ← orDefault? unsigned? defaultPageSize defaultSize
    let maxSize ← orDefault? unsigned? defaultMaxPageSize maxSize
    return { defaultSize, maxSize }
  | _ => none

/-- The limit on bindings. -/
def bindingLimit? (value : Toml) : Option Nat := do
  match ← members? ["binding_limit"] value with
  | [limit] => orDefault? unsigned? defaultBindingLimit limit
  | _ => none

/-- All settings. -/
def ofEntries? (entries : Toml.Entries) : Option Settings := do
  let pages ← orDefault? pages? {} (Toml.Entries.get? "pagination" entries)
  let bindingLimit ← orDefault? bindingLimit? defaultBindingLimit (Toml.Entries.get? "execution" entries)
  let logFilter ← orDefault? text? "info" (Toml.Entries.get? "log_filter" entries)
  return { pages, bindingLimit, logFilter }

/-- The settings in a text. They have to pass `Settings.check`. -/
def ofToml (text : String) : Except SettingsError Settings :=
  match Toml.parse? text with
  | none => .error (.malformed "malformed text")
  | some entries =>
    match ofEntries? entries with
    | none => .error (.malformed "a setting has a value of another type")
    | some settings => settings.check.map fun _ => settings

/-- The settings in a file, given what reading the file came to. -/
def load (path : String) (content : Except String String) : Reporting SettingsError Settings :=
  match content with
  | .error reason => .fail (.unreadableFile path reason)
  | .ok text => do
    let settings ← Logged.ofExcept (ofToml text)
    Logged.note [.configLoaded path settings.pages.defaultSize settings.pages.maxSize]
    return settings

end Settings

end Criteria
