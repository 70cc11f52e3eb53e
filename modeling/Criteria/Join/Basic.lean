import Criteria.Filter

/-!
# Joins

A join follows a relation from a document to the rows under one of its keys. Joins form
trees: the children of a join start from its rows.

## Main definitions

- `JoinKind`: whether a document without rows is kept
- `Join`: a relation with its filter and its child joins
- `JoinIdentity`, `JoinIdentity.cmp`: what tells siblings apart, and their order
- `Join.ofPath`: the chain of joins along a path
- `Join.descendant?`, `Join.updateDescendant`: the descendant at a path

## Design notes

Siblings are lists of joins. They are built by insertion only and stand in strictly
increasing order of their identities.
-/

namespace Criteria

/-- The kind of a join. Left and full joins keep a document that has no rows. -/
inductive JoinKind where
  | inner
  | left
  | right
  | full
deriving DecidableEq, Repr, Inhabited

namespace JoinKind

def all : List JoinKind :=
  [inner, left, right, full]

def name : JoinKind → String
  | inner => "INNER"
  | left => "LEFT"
  | right => "RIGHT"
  | full => "FULL"

def ofName? (s : String) : Option JoinKind :=
  all.find? (·.name = s)

/-- The place of a kind in the order of kinds. -/
def rank : JoinKind → Nat
  | inner => 0
  | left => 1
  | right => 2
  | full => 3

/-- A document without rows is kept. -/
def keepsUnmatched : JoinKind → Bool
  | left | full => true
  | inner | right => false

end JoinKind

/-- A key and a kind, which tell a join from its siblings. -/
structure JoinIdentity where
  key : String
  kind : JoinKind
deriving DecidableEq, Repr, Inhabited

/-- Identities are ordered by key and then by kind. -/
def JoinIdentity.cmp : JoinIdentity → JoinIdentity → Ordering :=
  compareLex (compareOn (·.key)) (compareOn (·.kind.rank))

/-- A relation that a query follows. -/
structure Join where
  key : String
  kind : JoinKind
  /-- Criteria on the rows of the relation. -/
  filter : Filter := {}
  children : List Join := []
  /-- The rows are to be loaded along with the document. -/
  fetch : Bool := true
deriving Repr, Inhabited

namespace Join

def identity (j : Join) : JoinIdentity :=
  ⟨j.key, j.kind⟩

/-- The chain of joins along segments, all of one kind, given by its first segment and the
others. -/
def chain (kind : JoinKind) (fetch : Bool) (first : String) : List String → Join
  | [] => { key := Text.trim first, kind, fetch }
  | second :: rest =>
    { key := Text.trim first, kind, fetch, children := [chain kind fetch second rest] }

/-- The chain of joins along a path. The key of a join has no white space at its ends. -/
def ofPath (path : String) (kind : JoinKind) (fetch : Bool) : Except ConditionError Join := do
  match ← Path.segments path with
  | first :: rest => return chain kind fetch first rest
  | [] => .error (.emptySegment path)

mutual

/-- The number of joins in a tree. -/
def count : Join → Nat
  | ⟨_, _, _, children, _⟩ => countAll children + 1

def countAll : List Join → Nat
  | [] => 0
  | j :: rest => count j + countAll rest

end

mutual

/-- Every criterion in the tree is well formed; the first that is not gives the error. -/
def check : Join → Except ConditionError Unit
  | ⟨_, _, filter, children, _⟩ => do
    filter.check
    checkAll children

def checkAll : List Join → Except ConditionError Unit
  | [] => .ok ()
  | j :: rest => do
    check j
    checkAll rest

end

/-- The join with an identity among siblings. -/
def get? (siblings : List Join) (identity : JoinIdentity) : Option Join :=
  siblings.find? (·.identity = identity)

/-- The first join with a key among siblings, whatever its kind. -/
def findKey? (siblings : List Join) (key : String) : Option Join :=
  siblings.find? (·.key = key)

/-- Changes the join with an identity among siblings. -/
def update (identity : JoinIdentity) (change : Join → Join) : List Join → List Join
  | [] => []
  | j :: rest =>
    if j.identity = identity then change j :: rest else j :: update identity change rest

/-- Changes the first join with a key among siblings. -/
def updateKey (key : String) (change : Join → Join) : List Join → List Join
  | [] => []
  | j :: rest => if j.key = key then change j :: rest else j :: updateKey key change rest

/-- The descendant along keys, the first match at each of them. -/
def follow? : List String → Join → Option Join
  | [], j => some j
  | key :: rest, j => (findKey? j.children key).bind (follow? rest)

/-- Changes the descendant along keys. -/
def updateAlong (change : Join → Join) : List String → Join → Join
  | [], j => change j
  | key :: rest, j =>
    { j with children := updateKey key (updateAlong change rest) j.children }

/-- The descendant at a dotted path of keys. -/
def descendant? (j : Join) (path : String) : Option Join :=
  follow? (Path.parts path) j

/-- Changes the descendant at a dotted path of keys. -/
def updateDescendant (j : Join) (path : String) (change : Join → Join) : Join :=
  updateAlong change (Path.parts path) j

end Join

end Criteria
