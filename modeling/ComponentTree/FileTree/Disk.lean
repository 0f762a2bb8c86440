import ComponentTree.FileTree.Location
import ComponentTree.Loader

/-!
This module contains the disk that a tree of files makes up, and the changes to the tree that making
and removing files come to.
-/

namespace ComponentTree

structure FileSystem where
  top : FileTree
  workingDirectory : List Bytes

namespace FileSystem

def locate (fs : FileSystem) (p : Path) : Except Fault (List Bytes) :=
  fs.top.locatePath fs.workingDirectory p

def canonical (fs : FileSystem) (p : Path) : Except Fault Path :=
  (fs.locate p).map Path.ofNames

def content (fs : FileSystem) (p : Path) : Except Fault Bytes := do
  -- A NUL in a path is objected to before its length.
  if FileTree.maxPathLength < p.bytes.length ∧ ¬ p.bytes.contains 0 then throw .nameTooLong
  match fs.top.at? (← fs.locate p) with
  | some (.file content) => return content
  | some (.directory _) => throw .isDirectory
  | _ => throw .notFound

def directory? (fs : FileSystem) (p : Path) : Option FileTree :=
  match fs.locate p with
  | .ok location => (fs.top.at? location).filter FileTree.isDirectory
  | .error _ => none

def disk (fs : FileSystem) : Disk where
  workingDirectory := Path.ofNames fs.workingDirectory
  canonical := fs.canonical
  content := fs.content
  directory? := fs.directory?

def enter (fs : FileSystem) (p : Path) : Except Fault FileSystem := do
  return { fs with workingDirectory := ← fs.locate p }

def put (fs : FileSystem) (location : List Bytes) (t : FileTree) : FileSystem :=
  { fs with top := (FileTree.change (fun _ => some t) location (some fs.top)).getD .empty }

def makeDirectories (fs : FileSystem) (here : List Bytes) : (pieces : List Bytes) →
    List Bytes × FileSystem
  | [] => (here, fs)
  | piece :: pieces =>
    match fs.top.locate FileTree.maxLinks here [piece] with
    | .ok location => fs.makeDirectories location pieces
    | .error _ =>
      let location := here ++ [piece]
      (fs.put location .empty).makeDirectories location pieces

def makeDirectory (fs : FileSystem) (p : Path) : FileSystem :=
  (fs.makeDirectories (if p.isAbsolute then [] else fs.workingDirectory) p.pieces).2

def make (fs : FileSystem) (p : Path) (t : FileTree) : FileSystem :=
  let (here, fs) :=
    fs.makeDirectories (if p.isAbsolute then [] else fs.workingDirectory) p.pieces.dropLast
  let name := p.pieces.getLast?.toList
  -- Writing to a link writes to what it leads to, while a link is made in the place of another.
  let links :=
    match t with
    | .file _ => FileTree.maxLinks
    | _ => 0
  match fs.top.place links here name with
  | .ok location => fs.put location t
  | .error _ => fs

def remove (fs : FileSystem) (p : Path) : FileSystem :=
  match fs.locate ⟨[Path.slash].intercalate (p.pieces.dropLast ++ [Path.ownName])⟩ with
  | .ok here =>
    let location := here ++ p.pieces.getLast?.toList
    { fs with top := (FileTree.change (fun _ => none) location (some fs.top)).getD .empty }
  | .error _ => fs

end FileSystem

end ComponentTree
