import Stencil.File

/-!
Paths: what they are made of, and the path to which another one leads from a directory.
-/

namespace Stencil

inductive Component where
  | root
  | current
  | parent
  | name (text : List Char)
deriving DecidableEq, Repr

namespace Component

/-- What a segment of a path counts for. An empty one and a single dot count for nothing. -/
def ofSegment? : List Char → Option Component
  | [] | ['.'] => none
  | ['.', '.'] => some parent
  | text => some (name text)

def leadsOut : Component → Bool
  | root | parent => true
  | current | name _ => false

end Component

/-- The component that a path has only at its start, if it has one there. -/
def firstComponent (path : List Char) : List Component :=
  if path.head? = some '/' then [.root]
  else if (segments path).head? = some ['.'] then [.current]
  else []

def components (path : List Char) : List Component :=
  firstComponent path ++ (segments path).filterMap Component.ofSegment?

/-- The path to which another one leads from a directory. An absolute path leads to where it leads
from anywhere. -/
def join (directory other : List Char) : List Char :=
  if other.head? = some '/' then other
  else if directory.getLast?.all (· == '/') then directory ++ other
  else directory ++ '/' :: other

end Stencil
