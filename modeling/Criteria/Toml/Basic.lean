/-!
# TOML documents

## Main definitions

- `TableForm`: how a table came to be, which decides what may still be added to it
- `Toml`: the values of a document
- `Toml.Entries.put?`, `Toml.Entries.openTable?`, `Toml.Entries.openItem?`: the three ways in
  which a document grows

## Design notes

A key is given a value once. A table is opened by a header once, a table that exists only
because a longer header names it may still be opened, and a table made by dotted keys may
be extended by dotted keys only.
-/

namespace Criteria

/-- How a table came to be. -/
inductive TableForm where
  /-- Written in braces. -/
  | inline
  /-- Opened by a header of its own. -/
  | opened
  /-- Named by a longer header. -/
  | implied
  /-- Named by a dotted key. -/
  | dotted
deriving DecidableEq, Repr

/-- A value of a document. Floating-point numbers and moments in time are kept without
their content, which no reader here asks for. -/
inductive Toml where
  | text (s : String)
  | int (i : Int)
  | float
  | bool (b : Bool)
  | moment
  | array (items : List Toml)
  | table (form : TableForm) (entries : List (String × Toml))
  /-- The tables of an array that is written with one header for each. -/
  | tables (items : List Toml)
deriving Repr, Inhabited

namespace Toml

/-- The keys and values of a table. -/
abbrev Entries := List (String × Toml)

namespace Entries

/-- The value at a key. -/
def get? (key : String) : Entries → Option Toml
  | [] => none
  | (k, v) :: rest => if k = key then some v else get? key rest

/-- Puts a value at a key, in place of the value that is there. -/
def set (key : String) (value : Toml) : Entries → Entries
  | [] => [(key, value)]
  | (k, v) :: rest => if k = key then (key, value) :: rest else (k, v) :: set key value rest

/-- The items with the last one changed. -/
def changeLast? (change : Toml → Option Toml) : List Toml → Option (List Toml)
  | [] => none
  | [item] => (change item).map ([·])
  | item :: rest => (changeLast? change rest).map (item :: ·)

/-- Changes the table along keys. Tables that are missing are made, of the form `made`. Of
an array of tables the last one is meant. A table that is `closed` is not entered, and
neither is a value. -/
def along? (made : TableForm) (closed : TableForm → Bool)
    (change : TableForm → Entries → Option Entries) :
    List String → TableForm → Entries → Option Entries
  | [], form, entries => change form entries
  | key :: rest, _, entries =>
    match entries.get? key with
    | none => do
      let inner ← along? made closed change rest made []
      return entries.set key (.table made inner)
    | some (.table form inner) =>
      if form = .inline || closed form then none
      else do
        let inner ← along? made closed change rest form inner
        return entries.set key (.table form inner)
    | some (.tables items) => do
      let items ← changeLast?
        (fun
          | .table form inner => (along? made closed change rest form inner).map (.table form)
          | _ => none)
        items
      return entries.set key (.tables items)
    | some _ => none

/-- Gives a key its value. With a path before the key, the table at that path has to be one
that dotted keys made, or is made now. -/
def put? (path : List String) (key : String) (value : Toml) (entries : Entries) :
    Option Entries :=
  along? .dotted (· = .opened)
    (fun form inner =>
      if !path.isEmpty && form != .dotted then none
      else
        match inner.get? key with
        | some _ => none
        | none => some (inner.set key value))
    path .opened entries

/-- Opens the table at a path. A table that is named by longer headers so far keeps its
entries. -/
def openTable? (path : List String) (key : String) (entries : Entries) : Option Entries :=
  along? .implied (fun _ => false)
    (fun _ inner =>
      match inner.get? key with
      | none => some (inner.set key (.table .opened []))
      | some (.table .implied there) => some (inner.set key (.table .opened there))
      | some _ => none)
    path .opened entries

/-- Gives a key its value within the table that a header opened. -/
def putUnder? (header path : List String) (key : String) (value : Toml) (entries : Entries) :
    Option Entries :=
  along? .implied (fun _ => false) (fun _ inner => inner.put? path key value) header .opened
    entries

/-- Opens one more table of the array of tables at a path. -/
def openItem? (path : List String) (key : String) (entries : Entries) : Option Entries :=
  along? .implied (fun _ => false)
    (fun _ inner =>
      match inner.get? key with
      | none => some (inner.set key (.tables [.table .opened []]))
      | some (.tables items) => some (inner.set key (.tables (items ++ [.table .opened []])))
      | some _ => none)
    path .opened entries

end Entries

end Toml

end Criteria
