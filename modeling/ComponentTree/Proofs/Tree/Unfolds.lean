import ComponentTree.Tree

/-!
This module contains the one way in which a tree is put together from the children of every path,
and that it leaves no choice: trees put together from the same children are the same.
-/

namespace ComponentTree

structure Unfolds (limit : DepthLimit) (children : Path → List Path)
    (T : List Path → Nat → Path → Tree) : Prop where
  cut {ancestors : List Path} {depth : Nat} {p : Path} :
    ancestors.any (fun a => a.Same p) = true ∨ limit.allows (depth + 1) = false →
      T ancestors depth p = .node p []
  expand {ancestors : List Path} {depth : Nat} {p : Path} :
    ¬ (ancestors.any (fun a => a.Same p) = true ∨ limit.allows (depth + 1) = false) →
      T ancestors depth p = .node p ((children p).map (T (p :: ancestors) (depth + 1)))

namespace Graph

theorem unfolds_treeBelow (g : Graph) (limit : DepthLimit) :
    Unfolds limit g.dependencies (g.treeBelow limit) where
  cut := by
    intro ancestors depth p h
    rw [treeBelow]
    simp only [h, ↓reduceDIte]
  expand := by
    intro ancestors depth p h
    rw [treeBelow]
    simp only [h, ↓reduceDIte, List.map_attach_eq_pmap, List.pmap_eq_map]

theorem path_treeBelow {g : Graph} {limit : DepthLimit} (ancestors : List Path) (depth : Nat)
    (p : Path) : (g.treeBelow limit ancestors depth p).path = p := by
  rw [treeBelow]
  split <;> rfl

theorem treeBelow_eq_of_unfolds {g : Graph} {limit : DepthLimit} {children : Path → List Path}
    {T : List Path → Nat → Path → Tree} (hT : Unfolds limit children T) {D : Path → Prop}
    (hchildren : ∀ p, D p → g.dependencies p = children p)
    (hstep : ∀ p, D p → ∀ q ∈ g.dependencies p, D q) (ancestors : List Path) (depth : Nat)
    (p : Path) (hp : D p) : g.treeBelow limit ancestors depth p = T ancestors depth p := by
  induction ancestors, depth, p using treeBelow.induct g limit with
  | case1 ancestors depth p hcut =>
    rw [hT.cut hcut, (g.unfolds_treeBelow limit).cut hcut]
  | case2 ancestors depth p hcut ih =>
    rw [hT.expand hcut, (g.unfolds_treeBelow limit).expand hcut, ← hchildren p hp]
    congr 1
    apply List.map_congr_left
    intro q hq
    apply ih q hq
    exact hstep p hp q hq

end Graph

end ComponentTree
