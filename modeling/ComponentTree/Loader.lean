import ComponentTree.Failure
import ComponentTree.FileTree

/-!
This module contains the access to sources while a graph is built: the files of a disk as a run sees
them, and the files that are held in memory to stand in for those.
-/

namespace ComponentTree

/-- Where sources come from. The same question always has the same answer. -/
structure Loader where
  workingDirectory : Path
  canonical : Path → Except Fault Path
  text : Path → Except Fault Text

structure MemoryFile where
  path : Path
  text? : Option Text

namespace MemoryFile

def find? (files : List MemoryFile) (p : Path) : Option MemoryFile :=
  files.find? fun file => file.path.Same p

def aliased (aliases : List (Path × Path)) (p : Path) : Path :=
  match aliases.reverse.find? fun entry => entry.1.Same p with
  | some (_, target) => target
  | none => p

/--
Files in memory as a loader. A path is its own canonical form, but for the aliases, which are
followed once and not when a file is read.
-/
def loader (files : List MemoryFile) (aliases : List (Path × Path)) : Loader where
  workingDirectory := ⟨[Path.slash]⟩
  canonical p :=
    let p := aliased aliases p
    if (find? files p).isSome then .ok p else .error .notFound
  text p :=
    match find? files p with
    | some ⟨_, some text⟩ => .ok text
    | some ⟨_, none⟩ => .error .accessDenied
    | none => .error .notFound

def distinctPaths (files : List MemoryFile) : List Path :=
  (files.map (·.path)).eraseDupsBy fun p q => p.Same q

def withExtension (files : List MemoryFile) (extension : Text) : List Path :=
  (files.map (·.path)).filter fun p => (Text.before? ('.' :: extension) p.display).isSome

end MemoryFile

structure Disk where
  workingDirectory : Path
  canonical : Path → Except Fault Path
  content : Path → Except Fault Bytes
  directory? : Path → Option FileTree

namespace Disk

def text (disk : Disk) (p : Path) : Except Fault Text := do
  match Text.Utf8.decode? (← disk.content p) with
  | some text => return text
  | none => throw .notUtf8

def loader (disk : Disk) : Loader where
  workingDirectory := disk.workingDirectory
  canonical := disk.canonical
  text := disk.text

end Disk

end ComponentTree
