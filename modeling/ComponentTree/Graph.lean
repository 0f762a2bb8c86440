import ComponentTree.Lists
import ComponentTree.Path

/-!
This module contains the dependency graph: for every source that was read, the files that it depends
on. A file that could not be read is no node, but may be among the targets of one.
-/

namespace ComponentTree

structure Node where
  path : Path
  targets : List Path
  nodup : (targets.map Path.components).Nodup

namespace Node

def ofPath (path : Path) : Node where
  path
  targets := []
  nodup := Path.nodup_components_nil

def hasTarget (node : Node) (target : Path) : Bool :=
  node.targets.any fun t => t.Same target

theorem hasTarget_iff {node : Node} {target : Path} :
    node.hasTarget target ↔ target.components ∈ node.targets.map Path.components := by
  simp only [hasTarget, List.any_eq_true, decide_eq_true_eq, List.mem_map]
  exact Iff.rfl

def link (node : Node) (target : Path) : Node :=
  if h : node.hasTarget target then node
  else
    { node with
      targets := node.targets ++ [target]
      nodup := nodup_map_append_singleton node.nodup (mt hasTarget_iff.2 h) }

@[simp] theorem path_link (node : Node) (target : Path) : (node.link target).path = node.path := by
  unfold link
  split <;> rfl

end Node

structure Graph where
  nodes : List Node
  nodup : (nodes.map (·.path.components)).Nodup

namespace Graph

def empty : Graph where
  nodes := []
  nodup := Path.nodup_components_nil

def size (g : Graph) : Nat :=
  g.nodes.length

def node? (g : Graph) (p : Path) : Option Node :=
  g.nodes.find? fun node => node.path.Same p

def contains (g : Graph) (p : Path) : Bool :=
  (g.node? p).isSome

def dependencies (g : Graph) (p : Path) : List Path :=
  match g.node? p with
  | some node => node.targets
  | none => []

theorem contains_iff {g : Graph} {p : Path} :
    g.contains p ↔ p.components ∈ g.nodes.map (·.path.components) := by
  simp only [contains, node?, List.find?_isSome, decide_eq_true_eq, List.mem_map]
  exact Iff.rfl

theorem contains_of_mem_dependencies {g : Graph} {p q : Path} (h : q ∈ g.dependencies p) :
    g.contains p := by
  unfold dependencies at h
  unfold contains
  split at h
  next heq => simp [heq]
  next => simp at h

def mark? (g : Graph) (p : Path) : Option Graph :=
  if h : g.contains p then none
  else
    some
      { nodes := g.nodes ++ [Node.ofPath p]
        nodup := nodup_map_append_singleton g.nodup (mt contains_iff.2 h) }

def mark (g : Graph) (p : Path) : Graph :=
  (g.mark? p).getD g

def withLink (g : Graph) (source target : Path) : Graph where
  nodes := g.nodes.map fun node => if node.path.Same source then node.link target else node
  nodup := by
    have h : (g.nodes.map fun node =>
        if node.path.Same source then node.link target else node).map (·.path.components)
        = g.nodes.map (·.path.components) := by
      rw [List.map_map]
      refine List.map_congr_left fun node _ => ?_
      simp only [Function.comp_apply]
      split <;> simp
    exact h ▸ g.nodup

def link? (g : Graph) (source target : Path) : Option Graph :=
  match g.node? source with
  | none => none
  | some node => if node.hasTarget target then none else some (g.withLink source target)

def link (g : Graph) (source target : Path) : Graph :=
  (g.link? source target).getD g

theorem contains_withLink (g : Graph) (source target p : Path) :
    (g.withLink source target).contains p = g.contains p := by
  rw [Bool.eq_iff_iff, contains_iff, contains_iff]
  have h : (g.withLink source target).nodes.map (·.path.components)
      = g.nodes.map (·.path.components) := by
    simp only [withLink, List.map_map]
    refine List.map_congr_left fun node _ => ?_
    simp only [Function.comp_apply]
    split <;> simp
  rw [h]

@[simp] theorem contains_link (g : Graph) (source target p : Path) :
    (g.link source target).contains p = g.contains p := by
  unfold link link?
  split
  · rfl
  · split
    · rfl
    · exact contains_withLink g source target p

theorem contains_congr (g : Graph) {p q : Path} (h : p.Same q) : g.contains p = g.contains q := by
  rw [Bool.eq_iff_iff, contains_iff, contains_iff, h]

@[simp] theorem contains_mark (g : Graph) (p q : Path) :
    (g.mark p).contains q = (g.contains q || decide (p.Same q)) := by
  unfold mark mark?
  split
  next h =>
    by_cases hpq : p.Same q
    · simp [hpq, ← contains_congr g hpq, h]
    · simp [hpq]
  next h =>
    rw [Bool.eq_iff_iff, Bool.or_eq_true, contains_iff, contains_iff, decide_eq_true_eq]
    simp only [Option.getD_some, List.map_append, List.map_cons, List.map_nil, List.mem_append,
      List.mem_singleton]
    exact or_congr Iff.rfl eq_comm

def sameAs (g h : Graph) : Bool :=
  g.size = h.size && g.nodes.all fun node =>
    match h.node? node.path with
    | some other => node.targets.map Path.components = other.targets.map Path.components
    | none => false

end Graph

end ComponentTree
