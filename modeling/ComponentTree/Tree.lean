import ComponentTree.Graph
import ComponentTree.Lists
import ComponentTree.Render.Options

/-!
This module contains the tree that is printed for a root of the graph. A file that several others
depend on stands below each of them; a file that stands above itself has nothing below it, which is
what keeps the tree of a cyclic graph finite.
-/

namespace ComponentTree

inductive Tree where
  | node (path : Path) (children : List Tree)

namespace Tree

def path : Tree → Path
  | node path _ => path

def children : Tree → List Tree
  | node _ children => children

end Tree

namespace Graph

def countBeyond (g : Graph) (ancestors : List Path) : Nat :=
  g.nodes.countP fun node => !ancestors.any fun a => a.Same node.path

theorem countBeyond_cons_lt {g : Graph} {ancestors : List Path} {p : Path} (hp : g.contains p)
    (hfresh : ancestors.any (fun a => a.Same p) = false) :
    g.countBeyond (p :: ancestors) < g.countBeyond ancestors := by
  rw [contains_iff, List.mem_map] at hp
  obtain ⟨node, hmem, hnode⟩ := hp
  have hsame : p.Same node.path := Eq.symm hnode
  refine countP_lt_countP (fun x _ hx => ?_) hmem ?_ ?_
  · simp only [List.any_cons, Bool.not_or, Bool.and_eq_true] at hx
    exact hx.2
  · simp only [List.any_eq_false, decide_eq_true_eq, Bool.not_eq_true'] at hfresh ⊢
    exact fun a ha h => hfresh a ha (h.trans hsame.symm)
  · simp [hsame]

/--
What is printed for `p`, which stands `depth` edges below a root, with `ancestors` above it. The
files below it are left out if it is its own ancestor, or if they lie too deep.
-/
def treeBelow (g : Graph) (limit : DepthLimit) (ancestors : List Path) (depth : Nat) (p : Path) :
    Tree :=
  if h : ancestors.any (fun a => a.Same p) = true ∨ limit.allows (depth + 1) = false then
    .node p []
  else
    .node p <| (g.dependencies p).attach.map fun ⟨q, hq⟩ =>
      have : g.countBeyond (p :: ancestors) < g.countBeyond ancestors :=
        countBeyond_cons_lt (contains_of_mem_dependencies hq) (by simpa using (not_or.1 h).1)
      g.treeBelow limit (p :: ancestors) (depth + 1) q
termination_by g.countBeyond ancestors

def tree (g : Graph) (limit : DepthLimit) (root : Path) : Tree :=
  g.treeBelow limit [] 0 root

end Graph

end ComponentTree
