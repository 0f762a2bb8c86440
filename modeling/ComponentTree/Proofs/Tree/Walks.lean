import Mathlib.Data.List.Basic
import ComponentTree.Proofs.Tree.Layout
import ComponentTree.Proofs.Tree.Unfolds

/-!
This module contains the three ways in which a graph can be walked along to print it, one for each
format. They tell at different points that a file stands above itself and that the limit is reached:
a drawing asks before it steps down to a file, a list asks at the file for those above it, and a
document of nested objects counts the file on the whole path down to it. What they print is the same
tree.
-/

namespace ComponentTree

namespace Graph

theorem countP_same_cons_gt_one_iff {above : List Path} {p : Path} :
    (p :: above).countP (fun q => q.Same p) > 1 ↔ above.any (fun a => a.Same p) = true := by
  rw [List.countP_cons_of_pos (by simp), gt_iff_lt, Nat.lt_add_left_iff_pos, List.countP_pos_iff,
    List.any_eq_true]

def nestedBelow (g : Graph) (limit : DepthLimit) (above : List Path) (depth : Nat) (p : Path) :
    Tree :=
  if h : (p :: above).countP (fun q => q.Same p) > 1 ∨ limit.allows (depth + 1) = false then
    .node p []
  else
    .node p <| (g.dependencies p).attach.map fun ⟨q, hq⟩ =>
      have : g.countBeyond (p :: above) < g.countBeyond above :=
        countBeyond_cons_lt (contains_of_mem_dependencies hq)
          (by simpa using mt countP_same_cons_gt_one_iff.2 (not_or.1 h).1)
      g.nestedBelow limit (p :: above) (depth + 1) q
termination_by g.countBeyond above

/--
The lines below `p`, whose dependencies stand `depth` edges below a root. A dependency that stands
above itself has its line, but is not stepped down to, so that no path down repeats a file.
-/
def drawnBelow (g : Graph) (limit : DepthLimit) (above : List Path) (depth : Nat) (p : Path)
    (hp : above.any (fun a => a.Same p) = false) (indent : Text) : List Text :=
  if limit.allows depth = true then
    (g.dependencies p).zipIdx.attach.flatMap fun ⟨(q, i), hq⟩ =>
      let last : Bool := i = (g.dependencies p).length - 1
      (indent ++ Tree.branch last ++ q.label) ::
        if h : (p :: above).any (fun a => a.Same q) = true then []
        else
          have : g.countBeyond (p :: above) < g.countBeyond above :=
            countBeyond_cons_lt (contains_of_mem_dependencies (List.fst_mem_of_mem_zipIdx hq)) hp
          g.drawnBelow limit (p :: above) (depth + 1) q (Bool.not_eq_true _ ▸ h)
            (indent ++ Tree.belowBranch last)
  else []
termination_by g.countBeyond above

def listedBelow (g : Graph) (limit : DepthLimit) (above : List Path) (depth : Nat) (p : Path) :
    List Text :=
  let repeated := above.any fun a => a.Same p
  let expand := !repeated && !(g.dependencies p).isEmpty && limit.allows (depth + 1)
  let indent := Tree.itemIndent depth
  let list :=
    if h : expand = true then
      [indent ++ "  <ul>".toList]
        ++ ((g.dependencies p).attach.flatMap fun ⟨q, hq⟩ =>
          have : g.countBeyond (p :: above) < g.countBeyond above := by
            simp only [expand, Bool.and_eq_true, Bool.not_eq_true'] at h
            exact countBeyond_cons_lt (contains_of_mem_dependencies hq) h.1.1
          g.listedBelow limit (p :: above) (depth + 1) q)
        ++ [indent ++ "  </ul>".toList]
    else []
  [indent ++ "<li>".toList, indent ++ "  ".toList ++ Tree.labelElement expand p.label] ++ list
    ++ [indent ++ "</li>".toList]
termination_by g.countBeyond above

def nested (g : Graph) (limit : DepthLimit) (root : Path) : Tree :=
  g.nestedBelow limit [] 0 root

def drawn (g : Graph) (limit : DepthLimit) (root : Path) : Text :=
  Text.unlines (root.label :: g.drawnBelow limit [] 1 root rfl [])

def listed (g : Graph) (limit : DepthLimit) (root : Path) : List Text :=
  "    <ul class=\"tree-root\">".toList :: g.listedBelow limit [] 0 root ++ ["    </ul>".toList]

variable {g : Graph} {limit : DepthLimit}

theorem unfolds_nestedBelow (g : Graph) (limit : DepthLimit) :
    Unfolds limit g.dependencies (g.nestedBelow limit) where
  cut := by
    intro above depth p h
    rw [← countP_same_cons_gt_one_iff] at h
    rw [nestedBelow]
    simp only [h, ↓reduceDIte]
  expand := by
    intro above depth p h
    rw [← countP_same_cons_gt_one_iff] at h
    rw [nestedBelow]
    simp only [h, ↓reduceDIte, List.map_attach_eq_pmap, List.pmap_eq_map]

theorem nestedBelow_eq_treeBelow (above : List Path) (depth : Nat) (p : Path) :
    g.nestedBelow limit above depth p = g.treeBelow limit above depth p :=
  (treeBelow_eq_of_unfolds (g.unfolds_nestedBelow limit) (D := fun _ => True)
    (fun _ _ => rfl) (fun _ _ _ _ => trivial) above depth p trivial).symm

end Graph

namespace Tree

theorem branchLines_eq_cons (indent : Text) (last : Bool) (tree : Tree) :
    tree.branchLines indent last = (indent ++ branch last ++ tree.path.label)
      :: forestLines (indent ++ belowBranch last) tree.children := by
  cases tree
  rfl

theorem forestLines_eq_flatMap_zipIdx_from (indent : Text) (trees : List Tree) (first count : Nat)
    (hcount : count = first + trees.length) : forestLines indent trees
      = (trees.zipIdx first).flatMap fun x => x.1.branchLines indent (x.2 = count - 1) := by
  induction trees generalizing first with
  | nil => rfl
  | cons tree trees ih =>
    have hlast : trees.isEmpty = decide (first = count - 1) := by
      rw [Bool.eq_iff_iff, List.isEmpty_iff_length_eq_zero, decide_eq_true_eq, hcount,
        List.length_cons]
      omega
    rw [forestLines, List.zipIdx_cons, List.flatMap_cons, hlast]
    congr 1
    apply ih
    rw [hcount, List.length_cons]
    omega

theorem forestLines_eq_flatMap_zipIdx (indent : Text) (trees : List Tree) :
    forestLines indent trees
      = trees.zipIdx.flatMap fun x => x.1.branchLines indent (x.2 = trees.length - 1) :=
  forestLines_eq_flatMap_zipIdx_from indent trees 0 _ (Nat.zero_add _).symm

theorem forestItemLines_eq_flatMap (depth : Nat) (trees : List Tree) :
    forestItemLines depth trees = trees.flatMap (itemLines depth) := by
  induction trees with
  | nil => rfl
  | cons tree trees ih => rw [forestItemLines, ih, List.flatMap_cons]

theorem itemLines_node (depth : Nat) (path : Path) (children : List Tree) :
    itemLines depth (.node path children)
      = [itemIndent depth ++ "<li>".toList,
          itemIndent depth ++ "  ".toList ++ labelElement (!children.isEmpty) path.label]
        ++ (if children.isEmpty then []
          else [itemIndent depth ++ "  <ul>".toList] ++ children.flatMap (itemLines (depth + 1))
            ++ [itemIndent depth ++ "  </ul>".toList])
        ++ [itemIndent depth ++ "</li>".toList] := by
  rw [← forestItemLines_eq_flatMap]
  cases children <;> rfl

end Tree

namespace Graph

variable {g : Graph} {limit : DepthLimit}

theorem drawnBelow_eq_forestLines (above : List Path) (depth : Nat) (p : Path)
    (hp : above.any (fun a => a.Same p) = false) (indent : Text) :
    g.drawnBelow limit above (depth + 1) p hp indent
      = Tree.forestLines indent (g.treeBelow limit above depth p).children := by
  induction above, depth, p using treeBelow.induct g limit generalizing indent with
  | case1 above depth p hcut =>
    have hdeep : limit.allows (depth + 1) = false := by simpa [hp] using hcut
    rw [drawnBelow, (g.unfolds_treeBelow limit).cut hcut]
    simp [hdeep, Tree.children, Tree.forestLines]
  | case2 above depth p hcut ih =>
    have hallows : limit.allows (depth + 1) = true := by simpa [hp] using hcut
    rw [drawnBelow, (g.unfolds_treeBelow limit).expand hcut, Tree.children,
      Tree.forestLines_eq_flatMap_zipIdx, List.zipIdx_map, List.flatMap_map, List.length_map,
      if_pos hallows, ← flatMap_attach (g.dependencies p).zipIdx]
    apply List.flatMap_congr
    rintro ⟨⟨q, i⟩, hq⟩ _
    rw [Tree.branchLines_eq_cons]
    simp only [Prod.map_apply, id_eq, path_treeBelow]
    congr 1
    split
    next hrepeated =>
      rw [(g.unfolds_treeBelow limit).cut (.inl hrepeated)]
      rfl
    next => exact ih q (List.fst_mem_of_mem_zipIdx hq) _ _

theorem listedBelow_eq_itemLines (above : List Path) (depth : Nat) (p : Path) :
    g.listedBelow limit above depth p
      = (g.treeBelow limit above depth p).itemLines depth := by
  induction above, depth, p using treeBelow.induct g limit with
  | case1 above depth p hcut =>
    have hexpand : (!(above.any fun a => a.Same p) && !(g.dependencies p).isEmpty
        && limit.allows (depth + 1)) = false := by
      rcases hcut with hrepeated | hdeep
      · simp [hrepeated]
      · simp [hdeep]
    rw [listedBelow, (g.unfolds_treeBelow limit).cut hcut]
    simp only [hexpand]
    rfl
  | case2 above depth p hcut ih =>
    have hexpand : (!(above.any fun a => a.Same p) && !(g.dependencies p).isEmpty
        && limit.allows (depth + 1)) = !(g.dependencies p).isEmpty := by
      rw [not_or, Bool.not_eq_true, Bool.not_eq_false] at hcut
      rw [hcut.1, hcut.2, Bool.not_false, Bool.true_and, Bool.and_true]
    have hitems : (g.dependencies p).flatMap (g.listedBelow limit (p :: above) (depth + 1))
        = ((g.dependencies p).map (g.treeBelow limit (p :: above) (depth + 1))).flatMap
          (Tree.itemLines (depth + 1)) := by
      rw [List.flatMap_map]
      apply List.flatMap_congr
      exact ih
    rw [listedBelow, (g.unfolds_treeBelow limit).expand hcut, Tree.itemLines_node,
      List.isEmpty_map, ← hitems, ← flatMap_attach (g.dependencies p)]
    simp only [hexpand]
    cases (g.dependencies p).isEmpty <;> rfl

theorem nested_eq_tree : g.nested limit = g.tree limit := by
  funext root
  exact nestedBelow_eq_treeBelow [] 0 root

theorem drawn_eq_drawing : g.drawn limit = fun root => (g.tree limit root).drawing := by
  funext root
  rw [Tree.drawing, Tree.drawingLines, tree, path_treeBelow, ← drawnBelow_eq_forestLines]
  rfl

theorem listed_eq_rootListLines :
    g.listed limit = fun root => (g.tree limit root).rootListLines := by
  funext root
  rw [listed, listedBelow_eq_itemLines, Tree.rootListLines, tree]

theorem render_eq_layout (g : Graph) (limit : DepthLimit) (roots : List Path) :
    g.render .json limit roots = Tree.jsonDocument (roots.map (g.nested limit))
      ∧ g.render .ascii limit roots = roots.flatMap (g.drawn limit)
      ∧ g.render .html limit roots
        = Text.unlines (Tree.pageOpening.map String.toList)
          ++ Text.unlines (roots.flatMap (g.listed limit))
          ++ '\n' :: Text.unlines (Tree.pageClosing.map String.toList)
      ∧ ∀ root, g.drawn limit root = (g.nested limit root).labels.drawing
        ∧ g.listed limit root = (g.nested limit root).labels.rootList := by
  rw [nested_eq_tree, drawn_eq_drawing, listed_eq_rootListLines]
  refine ⟨rfl, ?_, ?_, ?_⟩
  · rw [render, List.flatMap_map]
  · rw [render, Tree.htmlDocument, Tree.htmlLists, List.flatMap_map]
  · intro root
    exact ⟨Tree.drawing_eq_drawing_labels _, Tree.rootListLines_eq_rootList_labels _⟩

end Graph

end ComponentTree
