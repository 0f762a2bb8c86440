import Mathlib.Data.List.Forall2
import ComponentTree.Proofs.Tree.Chains
import ComponentTree.Proofs.Tree.Drawing

/-!
This module contains what a limit of the depth does to what is printed: it takes the files that lie
too deep out of the tree and changes nothing about the others. A drawing with a limit is the one
without it, or with a wider one, less the lines of these files.
-/

namespace ComponentTree

theorem map_fst_filter_zip_map {α β γ : Type} {p : α → Bool} {q : β → Bool} (f : α → γ)
    {xs : List α} {ys : List β} (h : List.Forall₂ (fun x y => p x = q y) xs ys) :
    (((xs.map f).zip ys).filter fun z => q z.2).map (·.1) = (xs.filter p).map f := by
  induction h with
  | nil => rfl
  | @cons x y xs ys hxy _ ih =>
    rw [List.map_cons, List.zip_cons_cons, List.filter_cons, List.filter_cons, ← hxy]
    cases p x <;> simp [ih]

namespace Tree

mutual

def upTo (levels : Nat) : Tree → Tree
  | .node path children =>
    match levels with
    | 0 => .node path []
    | levels + 1 => .node path (forestUpTo levels children)

def forestUpTo (levels : Nat) : List Tree → List Tree
  | [] => []
  | tree :: trees => tree.upTo levels :: forestUpTo levels trees

end

theorem forestUpTo_eq_map (levels : Nat) (trees : List Tree) :
    forestUpTo levels trees = trees.map (upTo levels) := by
  induction trees with
  | nil => rfl
  | cons tree trees ih => rw [forestUpTo, ih, List.map_cons]

@[simp] theorem upTo_leaf (levels : Nat) (p : Path) :
    (Tree.node p []).upTo levels = .node p [] := by
  cases levels <;> rfl

mutual

theorem rows_upTo (levels : Nat) (last : Bool) :
    ∀ tree : Tree, (tree.upTo levels).labels.rows last
      = (tree.labels.rows last).filter (·.above.length ≤ levels)
  | .node path children => by
    cases levels with
    | zero =>
      simp [upTo, labels, forestLabels, LabelTree.rows, LabelTree.forestRows, Row.below,
        List.filter_map, Function.comp_def]
    | succ levels =>
      simp [upTo, labels, LabelTree.rows, forestRows_upTo levels children, Row.below,
        List.filter_map, Function.comp_def]

theorem forestRows_upTo (levels : Nat) :
    ∀ trees : List Tree, LabelTree.forestRows (forestLabels (forestUpTo levels trees))
      = (LabelTree.forestRows (forestLabels trees)).filter (·.above.length ≤ levels)
  | [] => rfl
  | tree :: trees => by
    have hempty : (forestUpTo levels trees).isEmpty = trees.isEmpty := by cases trees <;> rfl
    rw [forestUpTo, forestLabels, forestLabels, LabelTree.forestRows, LabelTree.forestRows,
      List.filter_append, ← rows_upTo, ← forestRows_upTo, isEmpty_forestLabels,
      isEmpty_forestLabels, hempty]

end

end Tree

structure Row.Shows (row : Row) (walk : List Path) : Prop where
  depth : walk.length = row.above.length + 1
  label : walk.getLast?.map Path.label = some row.label

theorem Row.Shows.below {row : Row} {walk : List Path} (h : row.Shows walk) (last : Bool)
    (p : Path) : (row.below last).Shows (p :: walk) where
  depth := by simp [Row.below, h.depth]
  label := by
    cases walk with
    | nil => cases h.label
    | cons q walk =>
      rw [List.getLast?_cons_cons]
      exact h.label

namespace Tree

mutual

theorem shows_rows (last : Bool) :
    ∀ tree : Tree, List.Forall₂ Row.Shows (tree.labels.rows last) tree.chains
  | .node path children => by
    rw [labels, LabelTree.rows, chains]
    apply List.Forall₂.cons
    · exact ⟨rfl, rfl⟩
    · rw [List.forall₂_map_left_iff, List.forall₂_map_right_iff]
      exact (shows_forestRows children).imp fun _ _ h => h.below last path

theorem shows_forestRows :
    ∀ trees : List Tree,
      List.Forall₂ Row.Shows (LabelTree.forestRows (forestLabels trees)) (forestChains trees)
  | [] => .nil
  | tree :: trees => by
    rw [forestLabels, LabelTree.forestRows, forestChains]
    exact List.rel_append (shows_rows _ tree) (shows_forestRows trees)

end

inductive IsLineOf : Text → List Path → Prop where
  | root {p : Path} : IsLineOf p.label [p]
  | below {root : Path} {row : Row} {walk : List Path} (h : row.Shows walk) :
    IsLineOf row.line (root :: walk)

theorem drawingLines_eq_rows (path : Path) (children : List Tree) :
    drawingLines (.node path children)
      = path.label :: (LabelTree.forestRows (forestLabels children)).map Row.line := by
  rw [drawingLines, Tree.children, forestLines_eq_rows]
  rfl

theorem isLineOf_drawingLines (tree : Tree) :
    List.Forall₂ IsLineOf tree.drawingLines tree.chains := by
  cases tree with
  | node path children =>
    rw [drawingLines_eq_rows, chains]
    apply List.Forall₂.cons .root
    rw [List.forall₂_map_left_iff, List.forall₂_map_right_iff]
    exact (shows_forestRows children).imp fun _ _ h => .below h

theorem drawingLines_upTo (levels : Nat) (tree : Tree) : (tree.upTo levels).drawingLines
    = ((tree.drawingLines.zip tree.chains).filter fun x => x.2.length - 1 ≤ levels).map (·.1) := by
  cases tree with
  | node path children =>
    have hrows : List.Forall₂ (fun (row : Row) walk =>
        decide (row.above.length < levels) = decide (walk.length - 1 ≤ levels))
        (LabelTree.forestRows (forestLabels children))
        ((forestChains children).map (path :: ·)) := by
      rw [List.forall₂_map_right_iff]
      apply (shows_forestRows children).imp
      intro row walk h
      rw [List.length_cons, h.depth, decide_eq_decide]
      omega
    rw [drawingLines_eq_rows, chains, List.zip_cons_cons, List.filter_cons_of_pos (by simp),
      List.map_cons, map_fst_filter_zip_map Row.line hrows]
    cases levels with
    | zero =>
      rw [upTo, drawingLines_eq_rows]
      simp [forestLabels, LabelTree.forestRows]
    | succ levels =>
      simp only [upTo, drawingLines_eq_rows, forestRows_upTo, Nat.lt_succ_iff]

end Tree

namespace Graph

variable {g : Graph} {limit : DepthLimit}

theorem treeBelow_eq_upTo {above : List Path} {depth levels : Nat} {p : Path}
    (h : limit.allows (depth + levels) = true) :
    g.treeBelow ⟨some (depth + levels)⟩ above depth p
      = (g.treeBelow limit above depth p).upTo levels := by
  induction above, depth, p using treeBelow.induct g limit generalizing levels with
  | case1 above depth p hcut =>
    have hcut' : above.any (fun a => a.Same p) = true
        ∨ DepthLimit.allows ⟨some (depth + levels)⟩ (depth + 1) = false := by
      apply hcut.imp_right
      intro hdeep
      by_contra hallows
      have hle : depth + 1 ≤ depth + levels := by
        simp only [DepthLimit.allows, Option.all_some, decide_eq_false_iff_not] at hallows
        omega
      rw [DepthLimit.allows_of_le h hle] at hdeep
      contradiction
    rw [(g.unfolds_treeBelow limit).cut hcut, (g.unfolds_treeBelow _).cut hcut', Tree.upTo_leaf]
  | case2 above depth p hcut ih =>
    rw [(g.unfolds_treeBelow limit).expand hcut]
    cases levels with
    | zero =>
      rw [(g.unfolds_treeBelow _).cut (.inr (by simp [DepthLimit.allows]))]
      rfl
    | succ levels =>
      have hdepth : depth + (levels + 1) = depth + 1 + levels := by omega
      rw [(g.unfolds_treeBelow _).expand (by simpa [DepthLimit.allows] using (not_or.1 hcut).1),
        Tree.upTo, Tree.forestUpTo_eq_map, List.map_map, hdepth]
      congr 1
      apply List.map_congr_left
      intro q hq
      exact ih q hq (hdepth ▸ h)

theorem tree_eq_upTo {levels : Nat} (h : limit.allows levels = true) (root : Path) :
    g.tree ⟨some levels⟩ root = (g.tree limit root).upTo levels := by
  have hzero : g.treeBelow ⟨some (0 + levels)⟩ [] 0 root
      = (g.treeBelow limit [] 0 root).upTo levels := by
    apply treeBelow_eq_upTo
    rw [Nat.zero_add]
    exact h
  rw [Nat.zero_add] at hzero
  exact hzero

theorem render_ascii_of_levels (g : Graph) (root : Path) {limit : DepthLimit} {levels : Nat}
    (hlevels : limit.allows levels = true)
    (hlabels : ∀ label ∈ (g.tree limit root).labels.allLabels, '\n' ∉ label) :
    let lines := (g.render .ascii limit [root]).lines
    let files := (g.tree limit root).chains
    g.render .ascii limit [root] = Text.unlines lines
      ∧ List.Forall₂ Tree.IsLineOf lines files
      ∧ g.render .ascii ⟨some levels⟩ [root]
        = Text.unlines (((lines.zip files).filter fun x => x.2.length - 1 ≤ levels).map (·.1)) := by
  intro lines files
  have hrender : ∀ limit : DepthLimit,
      g.render .ascii limit [root] = Text.unlines (g.tree limit root).drawingLines := by
    intro limit
    simp [render, Tree.drawing]
  have hlines : lines = (g.tree limit root).drawingLines := by
    cases htree : g.tree limit root with
    | node path children =>
      rw [htree, Tree.labels] at hlabels
      rw [Tree.drawingLines_eq_rows, ← LabelTree.lines_drawing hlabels, ← Tree.labels,
        ← Tree.drawing_eq_drawing_labels, Tree.drawing, ← htree, ← hrender]
  refine ⟨?_, ?_, ?_⟩
  · rw [hlines, hrender]
  · rw [hlines]
    exact Tree.isLineOf_drawingLines _
  · rw [hrender, tree_eq_upTo hlevels, Tree.drawingLines_upTo, hlines]

theorem render_ascii_of_levels_emptyLabelGraph :
    let root := Path.ofText "/p/A.vue".toList
    (∀ label ∈ (emptyLabelGraph.tree .unlimited root).labels.allLabels, '\n' ∉ label)
      ∧ emptyLabelGraph.render .ascii .unlimited [root]
        = "A.vue\n└── \n    ├── \n    └── B.vue\n".toList
      ∧ emptyLabelGraph.render .ascii ⟨some 1⟩ [root] = "A.vue\n└── \n".toList := by
  intro root
  have hlabels : ∀ label ∈ (emptyLabelGraph.tree .unlimited root).labels.allLabels,
      '\n' ∉ label := by decide +kernel
  refine ⟨hlabels, by decide +kernel, ?_⟩
  have hlimit : DepthLimit.unlimited.allows 1 = true := rfl
  rw [(render_ascii_of_levels emptyLabelGraph root hlimit hlabels).2.2]
  decide +kernel

end Graph

end ComponentTree
