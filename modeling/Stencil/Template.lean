import Stencil.Parse.Error

/-!
Templates: lists of nodes, and the dotted paths that their nodes name.
-/

namespace Stencil

/-- A dotted path. It has at least one part: the head is a name that some scope binds, and each
part after it is a field of what the parts before it stand for. -/
structure Path where
  head : String
  tail : List String
deriving DecidableEq, Repr

namespace Path

def parts (path : Path) : List String :=
  path.head :: path.tail

def ofParts : List String → Except ParseError Path
  | [] => .error .emptyPath
  | head :: tail => .ok ⟨head, tail⟩

def extend (path : Path) (part : String) : Path :=
  { path with tail := path.tail ++ [part] }

def display (path : Path) : String :=
  ".".intercalate path.parts

end Path

inductive Node where
  | text (content : String)
  | output (path : Path)
  | branch (condition : Path) (yes : List Node) (no : Option (List Node))
  | loop (name : String) (items : Path) (body : List Node)
deriving Repr

abbrev Template := List Node

end Stencil
