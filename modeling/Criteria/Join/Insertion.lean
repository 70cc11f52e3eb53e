import Criteria.Join.Basic

/-!
# Inserting joins

No two siblings have the same identity. Inserting a join whose identity is there already
merges the two: the join that is there keeps its filter and its fetch flag, and takes over
the children of the new one, each by insertion.

## Main definitions

- `Join.insert`, `Join.insertAll`, `Join.ofList`: insertion into siblings
- `Join.survivor`: the join that an insertion gives back
- `Join.mergedInto`, `Join.mergedAll`: the identities at which insertion merges, in order
- `Join.addChild`, `Join.addChildPath`: insertion below a join
-/

namespace Criteria.Join

/-- Puts a join at its place among ordered siblings, or merges it into the one that has
the same identity. -/
def place (j : Join) (merge : Join → Join) : List Join → List Join
  | [] => [j]
  | there :: rest =>
    match j.identity.cmp there.identity with
    | .lt => j :: there :: rest
    | .eq => merge there :: rest
    | .gt => there :: place j merge rest

mutual

/-- The siblings with a join inserted. -/
def insertInto : Join → List Join → List Join
  | ⟨key, kind, filter, children, fetch⟩, siblings =>
    place ⟨key, kind, filter, children, fetch⟩
      (fun there => { there with children := insertAll children there.children }) siblings

/-- The siblings with several joins inserted, in order. -/
def insertAll : List Join → List Join → List Join
  | [], siblings => siblings
  | j :: rest, siblings => insertAll rest (insertInto j siblings)

end

mutual

/-- The identities at which the insertion of a join merges, outermost first. -/
def mergedInto : Join → List Join → List JoinIdentity
  | ⟨key, kind, _, children, _⟩, siblings =>
    match get? siblings ⟨key, kind⟩ with
    | some there => ⟨key, kind⟩ :: mergedAll children there.children
    | none => []

/-- The identities at which the insertion of several joins merges, in order. -/
def mergedAll : List Join → List Join → List JoinIdentity
  | [], _ => []
  | j :: rest, siblings => mergedInto j siblings ++ mergedAll rest (insertInto j siblings)

end

/-- The siblings with a join inserted. -/
def insert (siblings : List Join) (j : Join) : List Join :=
  insertInto j siblings

/-- The join that an insertion gives back: the one that is there already, with the children of
the new one inserted, or else the new one. -/
def survivor (siblings : List Join) (j : Join) : Join :=
  match get? siblings j.identity with
  | some there => { there with children := insertAll j.children there.children }
  | none => j

/-- The siblings that result from inserting joins one after the other. -/
def ofList (joins : List Join) : List Join :=
  insertAll joins []

/-- A join with a child inserted. -/
def addChild (j child : Join) : Join :=
  { j with children := insert j.children child }

/-- A join with a chain of children inserted, of its own kind and fetch flag. -/
def addChildPath (j : Join) (path : String) : Except ConditionError Join := do
  let child ← ofPath path j.kind j.fetch
  return j.addChild child

end Criteria.Join
