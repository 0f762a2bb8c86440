import ComponentTree.Lists
import ComponentTree.Path
import ComponentTree.Source

/-!
This module contains the files that a name can stand for. Their order decides which of several files
with one stem is meant: the first.
-/

namespace ComponentTree

structure CandidateSet where
  extension : Text
  files : List Path
  nodup : (files.map Path.components).Nodup

namespace CandidateSet

def ending (extension : Text) : Text :=
  '.' :: extension

def empty (extension : Text) : CandidateSet where
  extension
  files := []
  nodup := Path.nodup_components_nil

def contains (set : CandidateSet) (p : Path) : Bool :=
  set.files.any fun file => file.Same p

theorem contains_iff {set : CandidateSet} {p : Path} :
    set.contains p ↔ p.components ∈ set.files.map Path.components := by
  simp only [contains, List.any_eq_true, decide_eq_true_eq, List.mem_map]
  exact Iff.rfl

def insert? (set : CandidateSet) (p : Path) : Option CandidateSet :=
  if h : set.contains p then none
  else
    some
      { set with
        files := set.files ++ [p]
        nodup := nodup_map_append_singleton set.nodup (mt contains_iff.2 h) }

def insert (set : CandidateSet) (p : Path) : CandidateSet :=
  (set.insert? p).getD set

def ofList (extension : Text) (files : List Path) : CandidateSet :=
  files.foldl insert (empty extension)

def stem? (set : CandidateSet) (p : Path) : Option Text :=
  p.fileName?.map fun name =>
    let name := Text.Utf8.decodeLossy name
    ((Text.before? (ending set.extension) name).getD name).lowercase

def resolve? (set : CandidateSet) (name : Name) : Option Path :=
  set.files.find? fun file => (set.stem? file).any name.isCarriedBy

theorem mem_of_resolve? {set : CandidateSet} {name : Name} {file : Path}
    (h : set.resolve? name = some file) : file ∈ set.files :=
  List.mem_of_find?_eq_some h

end CandidateSet

end ComponentTree
