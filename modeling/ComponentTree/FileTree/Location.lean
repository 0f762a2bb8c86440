import ComponentTree.Failure
import ComponentTree.FileTree

/-!
This module contains the way from a path to a location: step by step from a directory, where the
target of a symbolic link takes the place of the link. A location is given by the names from the top
down, none of which is a link.
-/

namespace ComponentTree.FileTree

def maxLinks : Nat := 40

def maxNameLength : Nat := 255

def maxPathLength : Nat := 4095

/--
The location that the stretches of a path lead to from the location `here`, on a way with at most
`links` symbolic links. Every stretch, be it empty, has to be taken in a directory.
-/
def locate (top : FileTree) (links : Nat) (here : List Bytes) (pieces : List Bytes) :
    Except Fault (List Bytes) :=
  match pieces with
  | [] => .ok here
  | piece :: pieces =>
    match top.at? here with
    | none | some (.link _) => .error .notFound
    | some (.file _) => .error .notDirectory
    | some (.directory entries) =>
      if Path.isIdle piece then locate top links here pieces
      else if piece = Path.parentName then locate top links here.dropLast pieces
      else if maxNameLength < piece.length then .error .nameTooLong
      else
        match (directory entries).child? piece with
        | none => .error .notFound
        | some (.link target) =>
          match links with
          | 0 => .error .tooManyLinks
          | links + 1 =>
            locate top links (if target.isAbsolute then [] else here) (target.pieces ++ pieces)
        | some _ => locate top links (here ++ [piece]) pieces
termination_by (links, pieces.length)

def locatePath (top : FileTree) (here : List Bytes) (p : Path) : Except Fault (List Bytes) :=
  if p.bytes.contains 0 then .error .nulInPath
  else if p.bytes = [] then .error .notFound
  else locate top maxLinks (if p.isAbsolute then [] else here) p.pieces

def place (top : FileTree) (links : Nat) (here : List Bytes) (pieces : List Bytes) :
    Except Fault (List Bytes) := do
  let directory ← locate top maxLinks here pieces.dropLast
  let location := directory ++ pieces.getLast?.toList
  match links, top.at? location with
  | links + 1, some (.link target) =>
    place top links (if target.isAbsolute then [] else directory) target.pieces
  | _, _ => return location

end ComponentTree.FileTree
