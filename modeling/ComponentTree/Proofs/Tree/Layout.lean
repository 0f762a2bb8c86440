import ComponentTree.Render

/-!
This module contains the layouts of a tree of labels: the box drawing row by row, and the nested
lists element by element. What is printed for a tree is the layout of its labels.
-/

namespace ComponentTree

inductive LabelTree where
  | node (label : Text) (children : List LabelTree)

namespace LabelTree

mutual

def allLabels : LabelTree → List Text
  | .node label children => label :: forestAllLabels children

def forestAllLabels : List LabelTree → List Text
  | [] => []
  | tree :: trees => tree.allLabels ++ forestAllLabels trees

end

end LabelTree

namespace Tree

mutual

def labels : Tree → LabelTree
  | .node path children => .node path.label (forestLabels children)

def forestLabels : List Tree → List LabelTree
  | [] => []
  | tree :: trees => tree.labels :: forestLabels trees

end

@[simp] theorem isEmpty_forestLabels (trees : List Tree) :
    (forestLabels trees).isEmpty = trees.isEmpty := by
  cases trees <;> rfl

end Tree

structure Row where
  above : List Bool
  last : Bool
  label : Text

namespace Row

def below (last : Bool) (row : Row) : Row :=
  { row with above := last :: row.above }

def line (row : Row) : Text :=
  row.above.flatMap Tree.belowBranch ++ Tree.branch row.last ++ row.label

@[simp] theorem line_below (last : Bool) (row : Row) :
    (row.below last).line = Tree.belowBranch last ++ row.line := by
  simp [line, below]

end Row

namespace LabelTree

def indented (blanks : Nat) (lines : List Text) : List Text :=
  lines.map (List.replicate blanks ' ' ++ ·)

section Indented

variable {blanks : Nat}

@[simp] theorem indented_nil : indented blanks [] = [] := rfl

@[simp] theorem indented_cons (line : Text) (lines : List Text) :
    indented blanks (line :: lines)
      = (List.replicate blanks ' ' ++ line) :: indented blanks lines := rfl

@[simp] theorem indented_append (lines lines' : List Text) :
    indented blanks (lines ++ lines') = indented blanks lines ++ indented blanks lines' :=
  List.map_append

@[simp] theorem indented_indented (blanks' : Nat) (lines : List Text) :
    indented blanks (indented blanks' lines) = indented (blanks + blanks') lines := by
  unfold indented
  rw [List.map_map]
  apply List.map_congr_left
  intro line _
  rw [Function.comp_apply, ← List.append_assoc, List.replicate_append_replicate]

end Indented

def element (opening closing : Text) (content : List Text) : List Text :=
  opening :: indented 2 content ++ [closing]

mutual

def rows (last : Bool) : LabelTree → List Row
  | .node label children => ⟨[], last, label⟩ :: (forestRows children).map (Row.below last)

def forestRows : List LabelTree → List Row
  | [] => []
  | tree :: trees => tree.rows trees.isEmpty ++ forestRows trees

end

def drawing : LabelTree → Text
  | .node label children => Text.unlines (label :: (forestRows children).map Row.line)

mutual

def item : LabelTree → List Text
  | .node label children =>
    let list :=
      match children with
      | [] => []
      | _ :: _ => element "<ul>".toList "</ul>".toList (forestItems children)
    element "<li>".toList "</li>".toList
      (Tree.labelElement (!children.isEmpty) label :: list)

def forestItems : List LabelTree → List Text
  | [] => []
  | tree :: trees => tree.item ++ forestItems trees

end

def rootList (tree : LabelTree) : List Text :=
  indented 4 (element "<ul class=\"tree-root\">".toList "</ul>".toList tree.item)

end LabelTree

namespace Tree

open LabelTree

mutual

theorem branchLines_eq_rows (indent : Text) (last : Bool) :
    ∀ tree : Tree, tree.branchLines indent last
      = (tree.labels.rows last).map (indent ++ Row.line ·)
  | .node path children => by
    rw [branchLines, labels, rows, forestLines_eq_rows, List.map_cons, List.map_map]
    congr 1
    · simp only [Row.line, List.flatMap_nil, List.nil_append, List.append_assoc]
    · apply List.map_congr_left
      intro row _
      rw [Function.comp_apply, Row.line_below, List.append_assoc]

theorem forestLines_eq_rows (indent : Text) :
    ∀ trees : List Tree, forestLines indent trees
      = (forestRows (forestLabels trees)).map (indent ++ Row.line ·)
  | [] => rfl
  | tree :: trees => by
    rw [forestLines, forestLabels, forestRows, List.map_append, isEmpty_forestLabels,
      branchLines_eq_rows, forestLines_eq_rows]

end

theorem drawing_eq_drawing_labels (tree : Tree) : tree.drawing = tree.labels.drawing := by
  cases tree with
  | node path children =>
    rw [drawing, drawingLines, labels, LabelTree.drawing, forestLines_eq_rows]
    rfl

mutual

theorem itemLines_eq_item (depth : Nat) :
    ∀ tree : Tree, tree.itemLines depth = indented (4 * depth + 6) tree.labels.item
  | .node path [] => by
    simp [itemLines, labels, forestLabels, item, element, itemIndent]
  | .node path (tree :: trees) => by
    have hdepth : 4 * (depth + 1) + 6 = 4 * depth + 6 + 2 + 2 := by omega
    simp only [itemLines, labels, forestLabels, item, forestItemLines_eq_items, hdepth]
    simp [element, itemIndent]

theorem forestItemLines_eq_items (depth : Nat) :
    ∀ trees : List Tree, forestItemLines depth trees
      = indented (4 * depth + 6) (forestItems (forestLabels trees))
  | [] => rfl
  | tree :: trees => by
    rw [forestItemLines, forestLabels, forestItems, indented_append, itemLines_eq_item,
      forestItemLines_eq_items]

end

theorem rootListLines_eq_rootList_labels (tree : Tree) :
    tree.rootListLines = tree.labels.rootList := by
  rw [rootListLines, itemLines_eq_item, rootList, element]
  simp

end Tree

end ComponentTree
