import ComponentTree.Path

/-!
This module contains trees of files, and the look-up in them by the names from the top down.
-/

namespace ComponentTree

inductive FileTree where
  | file (content : Bytes)
  | link (target : Path)
  | directory (entries : List (Bytes × FileTree))

namespace FileTree

def empty : FileTree := directory []

def entries : FileTree → List (Bytes × FileTree)
  | directory entries => entries
  | _ => []

def isDirectory : FileTree → Bool
  | directory _ => true
  | _ => false

def child? (t : FileTree) (name : Bytes) : Option FileTree :=
  (t.entries.find? (·.1 = name)).map (·.2)

def at? (t : FileTree) : (names : List Bytes) → Option FileTree
  | [] => some t
  | name :: names => (t.child? name).bind (·.at? names)

def changeEntry (name : Bytes) (change : Option FileTree → Option FileTree) :
    List (Bytes × FileTree) → List (Bytes × FileTree)
  | [] => (change none).toList.map (name, ·)
  | (n, t) :: entries =>
    if n = name then (change (some t)).toList.map (n, ·) ++ entries
    else (n, t) :: changeEntry name change entries

def change (f : Option FileTree → Option FileTree) :
    (names : List Bytes) → Option FileTree → Option FileTree
  | [], t? => f t?
  | name :: names, t? =>
    some (.directory (changeEntry name (change f names) ((t?.getD empty).entries)))

end FileTree

def Path.ofNames (names : List Bytes) : Path :=
  ⟨slash :: [slash].intercalate names⟩

end ComponentTree
