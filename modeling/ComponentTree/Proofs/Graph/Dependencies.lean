import ComponentTree.Graph

/-!
This module contains what marking a path and linking two paths do to the nodes and to the
dependencies of every path: marking adds a node and changes no dependencies, and linking adds no
node and changes those of its source only, at their end.
-/

namespace ComponentTree.Graph

variable (g : Graph) {p q : Path}

def paths (g : Graph) : List Path :=
  g.nodes.map (·.path)

theorem contains_of_mem_paths (h : p ∈ g.paths) : g.contains p := by
  rw [contains_iff]
  have := List.mem_map_of_mem (f := Path.components) h
  rw [paths, List.map_map] at this
  exact this

theorem paths_mark (h : ¬ g.contains p) : (g.mark p).paths = g.paths ++ [p] := by
  unfold mark mark?
  simp [h, paths, Node.ofPath]

@[simp] theorem paths_link (source target : Path) : (g.link source target).paths = g.paths := by
  unfold link link?
  split
  next => rfl
  next =>
    split
    next => rfl
    next =>
      simp only [Option.getD_some, paths, withLink, List.map_map]
      apply List.map_congr_left
      intro node _
      simp only [Function.comp_apply]
      split <;> simp

theorem node?_congr (h : p.Same q) : g.node? p = g.node? q := by
  unfold node?
  simp only [h.iff_right]

theorem dependencies_congr (h : p.Same q) : g.dependencies p = g.dependencies q := by
  unfold dependencies
  rw [node?_congr g h]

theorem same_of_node? {node : Node} (h : g.node? p = some node) : node.path.Same p := by
  have := List.find?_some h
  simpa using this

theorem dependencies_eq_nil (h : ¬ g.contains p) : g.dependencies p = [] := by
  apply List.eq_nil_iff_forall_not_mem.2
  intro q hq
  exact h (contains_of_mem_dependencies hq)

theorem nodup_dependencies (p : Path) : ((g.dependencies p).map Path.components).Nodup := by
  unfold dependencies
  split
  next node _ => exact node.nodup
  next => exact Path.nodup_components_nil

@[simp] theorem contains_empty (p : Path) : empty.contains p = false := rfl

theorem dependencies_mark (p q : Path) : (g.mark p).dependencies q = g.dependencies q := by
  unfold mark mark?
  split
  next => rfl
  next =>
    simp only [Option.getD_some, dependencies, node?, List.find?_append, List.find?_singleton]
    -- The new node stands last, so it is found only if there is no other, and has no dependencies.
    cases g.nodes.find? fun node => node.path.Same q with
    | some node => rfl
    | none =>
      simp only [Option.none_or]
      split
      next h =>
        split at h
        · cases h
          rfl
        · cases h
      next => rfl

theorem node?_withLink (source target p : Path) : (g.withLink source target).node? p
    = (g.node? p).map fun node => if node.path.Same source then node.link target else node := by
  unfold withLink node?
  rw [List.find?_map]
  congr 2
  funext node
  simp only [Function.comp_apply]
  split <;> simp

theorem dependencies_link_of_not_same {source : Path} (target : Path) (h : ¬ p.Same source) :
    (g.link source target).dependencies p = g.dependencies p := by
  unfold link link?
  split
  next => rfl
  next =>
    split
    next => rfl
    next =>
      simp only [Option.getD_some, dependencies, node?_withLink]
      cases hnode : g.node? p with
      | none => rfl
      | some node =>
        have hne : ¬ node.path.Same source := by
          intro hsource
          exact h ((same_of_node? g hnode).symm.trans hsource)
        simp [hne]

theorem dependencies_link_self {source : Path} (target : Path) (h : g.contains source) :
    (g.link source target).dependencies source
      = if (g.dependencies source).any (target.Same ·) then g.dependencies source
        else g.dependencies source ++ [target] := by
  rcases Option.isSome_iff_exists.1 h with ⟨node, hnode⟩
  have hsame : node.path.Same source := same_of_node? g hnode
  have hany : node.targets.any (target.Same ·) = node.hasTarget target := by
    unfold Node.hasTarget
    congr 1
    funext t
    rw [decide_eq_decide]
    exact eq_comm
  have hdependencies : g.dependencies source = node.targets := by
    unfold dependencies
    rw [hnode]
  rw [hdependencies, hany]
  unfold link link?
  rw [hnode]
  by_cases htarget : node.hasTarget target
  · simp [htarget, hdependencies]
  · simp only [htarget, Bool.false_eq_true, ↓reduceIte, Option.getD_some, dependencies,
      node?_withLink, hnode, Option.map_some, hsame]
    simp [Node.link, htarget]

end ComponentTree.Graph
