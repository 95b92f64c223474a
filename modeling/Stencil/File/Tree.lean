import Stencil.File

/-!
Trees of files, held in memory, and how a path is followed through them.
-/

namespace Stencil

/-- What lies below one directory, the uppermost one: files and directories, each by the names on
the way to it. Of several files with the same names the first one counts. -/
structure FileTree where
  files : List (List String × ByteArray) := []
  directories : List (List String) := []

namespace FileTree

inductive Place where
  | directory (names : List String)
  | file (content : ByteArray)
  /-- a directory that is not in the tree, of which no file is known -/
  | outside

def below (directory : List String) : List Char → List String
  | [] | ['.'] => directory
  | ['.', '.'] => directory.dropLast
  | segment => directory ++ [String.ofList segment]

/-- Writes a file to where some segments lead from a directory. The directories on the way are made,
and a file that is there already is replaced. -/
def writeBelow (tree : FileTree) (directory : List String) (content : ByteArray) :
    List (List Char) → FileTree
  | [] => tree
  | [segment] => { tree with files := (below directory segment, content) :: tree.files }
  | segment :: segments =>
    let next := below directory segment
    { tree with directories := next :: tree.directories }.writeBelow next content segments

def write (tree : FileTree) (path : String) (content : ByteArray) : FileTree :=
  tree.writeBelow [] content (segments path.toList)

def ofList (files : List (String × ByteArray)) : FileTree :=
  files.foldl (fun tree file => tree.write file.1 file.2) {}

def entry? (tree : FileTree) (directory : List String) (name : String) : Option Place :=
  let path := directory ++ [name]
  match tree.files.lookup path with
  | some content => some (.file content)
  | none => if tree.directories.contains path then some (.directory path) else none

def maxName : Nat := 255

def maxPath : Nat := 4095

/-- Goes on from a place by one segment of a path. Nothing, not even the place itself, is below a
file. -/
def follow (tree : FileTree) (place : Place) (segment : List Char) : Except ReadFault Place :=
  match place, segment with
  | .file _, _ => .error .notDirectory
  | place, [] => .ok place
  | place, ['.'] => .ok place
  | .directory [], ['.', '.'] => .ok .outside
  | .directory names, ['.', '.'] => .ok (.directory names.dropLast)
  | .outside, ['.', '.'] => .ok .outside
  | place, segment =>
    let name := String.ofList segment
    if maxName < name.utf8ByteSize then .error .nameTooLong
    else
      match place with
      | .directory names =>
        match tree.entry? names name with
        | some place => .ok place
        | none => .error .missing
      | _ => .error .missing

/-- The text of the file to which a path leads. A path that starts with a slash starts outside. -/
def read (tree : FileTree) (path : String) : Except ReadFault String := do
  let chars := path.toList
  if chars.contains '\x00' then .error .zeroInName
  else if chars.isEmpty then .error .missing
  else if maxPath < path.utf8ByteSize then .error .nameTooLong
  else
    let start := if chars.head? = some '/' then .outside else .directory []
    match ← (segments chars).foldlM (follow tree) start with
    | .file content => decodeText content
    | _ => .error .isDirectory

end FileTree
end Stencil
