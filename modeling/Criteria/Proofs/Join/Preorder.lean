import Criteria.Join.Basic

/-!
# Joins in preorder

The joins of a tree are told apart by the identities on the way from the document to them.

## Main definitions

- `Join.Located`: a join with the identities that lead to it
- `Join.located`, `Join.locatedAll`: all joins of a tree and of a forest, in preorder
-/

namespace Criteria.Join

/-- A join of a tree with the identities that lead to it: those of the joins above it, the
outermost first, and its own. -/
structure Located where
  path : List JoinIdentity
  join : Join

mutual

/-- The joins of a tree in preorder. -/
def located (above : List JoinIdentity) : Join → List Located
  | ⟨key, kind, filter, children, fetch⟩ =>
    ⟨above ++ [⟨key, kind⟩], ⟨key, kind, filter, children, fetch⟩⟩ ::
      locatedAll (above ++ [⟨key, kind⟩]) children

/-- The joins of a forest in preorder. -/
def locatedAll (above : List JoinIdentity) : List Join → List Located
  | [] => []
  | j :: rest => located above j ++ locatedAll above rest

end

end Criteria.Join
