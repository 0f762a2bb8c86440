import ComponentTree.CandidateSet
import ComponentTree.Failure
import ComponentTree.Loader

/-!
This module contains the search of a directory for candidates: the regular files below it with the
extension, outside of the directories that are left out. Links are not followed. Every directory of
a tree can be listed, so that nothing but the root makes a search fail.
-/

namespace ComponentTree

structure ScanOptions where
  extension : Text := "vue".toList
  excluded : List Text := ["node_modules".toList]
  sorted : Bool := false
deriving DecidableEq

namespace ScanOptions

def leavesOut (options : ScanOptions) (name : Bytes) : Bool :=
  options.excluded.contains (Text.Utf8.decodeLossy name)

def takes (options : ScanOptions) (name : Bytes) : Bool :=
  (Text.before? (CandidateSet.ending options.extension) (Text.Utf8.decodeLossy name)).isSome

def arrange (options : ScanOptions) (entries : List (Bytes × α)) : List (Bytes × α) :=
  if options.sorted then entries.mergeSort fun a b => a.1 ≤ b.1 else entries

end ScanOptions

namespace Scan

inductive Event where
  | skipped (directory : Path)
  | found (file : Path)
deriving DecidableEq

def Event.found? : Event → Option Path
  | found file => some file
  | skipped _ => none

mutual

def eventsIn (options : ScanOptions) (p : Path) (t : FileTree) : List Event :=
  match t with
  | .directory entries => (options.arrange (eventsOf options p entries)).flatMap (·.2)
  | .file _ | .link _ => []

def eventsOf (options : ScanOptions) (p : Path) (entries : List (Bytes × FileTree)) :
    List (Bytes × List Event) :=
  match entries with
  | [] => []
  | (name, t) :: entries =>
    let events :=
      match t with
      | .file _ => if options.takes name then [.found (p.child name)] else []
      | .link _ => []
      | .directory _ =>
        if options.leavesOut name then [.skipped (p.child name)]
        else eventsIn options (p.child name) t
    (name, events) :: eventsOf options p entries

end

end Scan

structure Scan where
  root : Path
  options : ScanOptions
  events : List Scan.Event

namespace Scan

def candidates (scan : Scan) : CandidateSet :=
  CandidateSet.ofList scan.options.extension (scan.events.filterMap Event.found?)

end Scan

def Disk.scan (disk : Disk) (root : Path) (options : ScanOptions) : Except Failure Scan :=
  match disk.canonical root with
  | .error fault => .error (.rootUnreadable (String.ofList root.display) fault.message)
  | .ok root =>
    match disk.directory? root with
    | none => .error (.rootUnreadable (String.ofList root.display) "not a directory")
    | some t => .ok ⟨root, options, Scan.eventsIn options root t⟩

end ComponentTree
