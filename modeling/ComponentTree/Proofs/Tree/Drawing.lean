import Mathlib.Data.List.Basic
import ComponentTree.Proofs.Tree.Layout

/-!
This module contains the reading of a box drawing: a line is taken apart into its units of four
characters up to the branch, and the rows are put together to a tree by how deep they stand. As long
as no label goes over several lines, what is read is the tree that was drawn, so that a drawing
tells its tree.
-/

namespace ComponentTree

namespace Text

def lines (text : Text) : List Text :=
  (text.splitOn '\n').dropLast

theorem lines_unlines {lines : List Text} (h : ∀ line ∈ lines, '\n' ∉ line) :
    (unlines lines).lines = lines := by
  induction lines with
  | nil => rfl
  | cons line lines ih =>
    have hline : ∀ c ∈ line, (c == '\n') = false := by
      intro c hc
      rw [beq_eq_false_iff_ne]
      rintro rfl
      exact h line List.mem_cons_self hc
    have hsplit : (unlines (line :: lines)).splitOn '\n'
        = line :: (unlines lines).splitOn '\n' := by
      rw [unlines_cons]
      apply List.splitOnP_append_cons_of_forall_mem hline
      rfl
    unfold Text.lines at ih ⊢
    have hne : (unlines lines).splitOn '\n' ≠ [] := List.splitOnP_ne_nil _ _
    rw [hsplit, List.dropLast_cons_of_ne_nil hne, ih]
    intro line' hline'
    apply h
    apply List.mem_cons_of_mem _ hline'

end Text

namespace Row

def ofLine? : (line : Text) → Option Row
  | a :: b :: c :: d :: rest =>
    if [a, b, c, d] = Tree.belowBranch false then (ofLine? rest).map (below false)
    else if [a, b, c, d] = Tree.belowBranch true then (ofLine? rest).map (below true)
    else if [a, b, c, d] = Tree.branch false then some ⟨[], false, rest⟩
    else if [a, b, c, d] = Tree.branch true then some ⟨[], true, rest⟩
    else none
  | _ => none

theorem ofLine?_belowBranch_append (last : Bool) (line : Text) :
    ofLine? (Tree.belowBranch last ++ line) = (ofLine? line).map (below last) := by
  cases last <;> rfl

theorem ofLine?_branch_append (last : Bool) (label : Text) :
    ofLine? (Tree.branch last ++ label) = some ⟨[], last, label⟩ := by
  cases last <;> rfl

theorem ofLine?_line (row : Row) : ofLine? row.line = some row := by
  rcases row with ⟨above, last, label⟩
  induction above with
  | nil => apply ofLine?_branch_append
  | cons isLast above ih =>
    have hline : (Row.mk (isLast :: above) last label).line
        = Tree.belowBranch isLast ++ (Row.mk above last label).line :=
      line_below isLast ⟨above, last, label⟩
    rw [hline, ofLine?_belowBranch_append, ih]
    rfl

theorem mapM_ofLine?_line (rows : List Row) :
    (rows.map line).mapM ofLine? = some rows := by
  induction rows with
  | nil => rfl
  | cons row rows ih => simp [ofLine?_line, ih]

def under (above : List Bool) (row : Row) : Row :=
  { row with above := above ++ row.above }

theorem under_comp_below (above : List Bool) (last : Bool) :
    under above ∘ below last = under (above ++ [last]) := by
  funext row
  simp [under, below]

end Row

namespace LabelTree

mutual

theorem map_label_rows (last : Bool) :
    ∀ tree : LabelTree, (tree.rows last).map Row.label = tree.allLabels
  | .node label children => by
    rw [rows, allLabels, List.map_cons, List.map_map, ← map_label_forestRows]
    rfl

theorem map_label_forestRows :
    ∀ trees : List LabelTree, (forestRows trees).map Row.label = forestAllLabels trees
  | [] => rfl
  | tree :: trees => by
    rw [forestRows, forestAllLabels, List.map_append, map_label_rows, map_label_forestRows]

end

/--
The trees that rows in preorder show, each with the number of files above it. A row has below it
those of the trees right after it that stand one step deeper.
-/
def leveled : (rows : List Row) → List (Nat × LabelTree)
  | [] => []
  | row :: rows =>
    let depth := row.above.length
    let children := (leveled rows).takeWhile (·.1 = depth + 1)
    (depth, .node row.label (children.map (·.2))) :: (leveled rows).dropWhile (·.1 = depth + 1)

section Leveled

variable {depth : Nat} {later : List (Nat × LabelTree)}

theorem takeWhile_leveled (hlater : ∀ x ∈ later.head?, x.1 ≤ depth) (children : List LabelTree) :
    (children.map (depth + 1, ·) ++ later).takeWhile (·.1 = depth + 1)
      = children.map (depth + 1, ·) := by
  have hnone : later.takeWhile (·.1 = depth + 1) = [] := by
    cases later with
    | nil => rfl
    | cons x later =>
      apply List.takeWhile_cons_of_neg
      have := hlater x rfl
      simp only [decide_eq_true_eq]
      omega
  rw [List.takeWhile_append_of_pos, hnone, List.append_nil]
  simp

theorem dropWhile_leveled (hlater : ∀ x ∈ later.head?, x.1 ≤ depth) (children : List LabelTree) :
    (children.map (depth + 1, ·) ++ later).dropWhile (·.1 = depth + 1) = later := by
  rw [List.dropWhile_append_of_pos]
  · cases later with
    | nil => rfl
    | cons x later =>
      apply List.dropWhile_cons_of_neg
      have := hlater x rfl
      simp only [decide_eq_true_eq]
      omega
  · simp

theorem map_snd_map_pair (trees : List LabelTree) :
    (trees.map (depth, ·)).map (·.2) = trees := by
  simp [Function.comp_def]

end Leveled

mutual

theorem leveled_rows_append (above : List Bool) (last : Bool) (rest : List Row)
    (hrest : ∀ x ∈ (leveled rest).head?, x.1 ≤ above.length) :
    ∀ tree : LabelTree, leveled ((tree.rows last).map (Row.under above) ++ rest)
      = (above.length, tree) :: leveled rest
  | .node label children => by
    have hchildren : leveled ((forestRows children).map (Row.under (above ++ [last])) ++ rest)
        = children.map (above.length + 1, ·) ++ leveled rest := by
      rw [leveled_forestRows_append, List.length_append, List.length_singleton]
      intro x hx
      have := hrest x hx
      rw [List.length_append]
      omega
    rw [rows, List.map_cons, List.map_map, Row.under_comp_below, List.cons_append, leveled,
      hchildren]
    simp only [Row.under, List.append_nil]
    rw [takeWhile_leveled hrest, dropWhile_leveled hrest, map_snd_map_pair]

theorem leveled_forestRows_append (above : List Bool) (rest : List Row)
    (hrest : ∀ x ∈ (leveled rest).head?, x.1 ≤ above.length) :
    ∀ trees : List LabelTree, leveled ((forestRows trees).map (Row.under above) ++ rest)
      = trees.map (above.length, ·) ++ leveled rest
  | [] => rfl
  | tree :: trees => by
    have htrees : leveled ((forestRows trees).map (Row.under above) ++ rest)
        = trees.map (above.length, ·) ++ leveled rest :=
      leveled_forestRows_append above rest hrest trees
    rw [forestRows, List.map_append, List.append_assoc, leveled_rows_append, htrees]
    · rfl
    · rw [htrees]
      cases trees with
      | nil => exact hrest
      | cons _ _ => simp

end

theorem map_leveled_forestRows (trees : List LabelTree) :
    (leveled (forestRows trees)).map (·.2) = trees := by
  have h := leveled_forestRows_append [] [] (by simp [leveled]) trees
  have hunder : Row.under [] = id := rfl
  rw [hunder, List.map_id, List.append_nil] at h
  rw [h, leveled, List.append_nil, map_snd_map_pair]

def ofDrawing? (text : Text) : Option LabelTree :=
  match text.lines with
  | [] => none
  | label :: lines =>
    (lines.mapM Row.ofLine?).map fun rows => .node label ((leveled rows).map (·.2))

theorem newline_not_mem_line {row : Row} (h : '\n' ∉ row.label) : '\n' ∉ row.line := by
  have hunit : ∀ last, '\n' ∉ Tree.belowBranch last := by decide
  have hbranch : ∀ last, '\n' ∉ Tree.branch last := by decide
  simp [Row.line, h, hunit, hbranch]

theorem lines_drawing {label : Text} {children : List LabelTree}
    (h : ∀ l ∈ (node label children).allLabels, '\n' ∉ l) :
    (drawing (.node label children)).lines = label :: (forestRows children).map Row.line := by
  rw [allLabels, ← map_label_forestRows] at h
  apply Text.lines_unlines
  intro line hline
  cases hline with
  | head =>
    apply h
    apply List.mem_cons_self
  | tail _ hline =>
    rcases List.mem_map.1 hline with ⟨row, hrow, rfl⟩
    apply newline_not_mem_line
    apply h
    apply List.mem_cons_of_mem
    apply List.mem_map_of_mem hrow

theorem ofDrawing?_drawing {tree : LabelTree} (h : ∀ label ∈ tree.allLabels, '\n' ∉ label) :
    ofDrawing? tree.drawing = some tree := by
  rcases tree with ⟨label, children⟩
  rw [ofDrawing?, lines_drawing h]
  simp only [Row.mapM_ofLine?_line, Option.map_some, map_leveled_forestRows]

end LabelTree

namespace Graph

theorem render_ascii_eq_iff {g g' : Graph} {limit limit' : DepthLimit} {root root' : Path}
    (h : ∀ label ∈ (g.tree limit root).labels.allLabels, '\n' ∉ label)
    (h' : ∀ label ∈ (g'.tree limit' root').labels.allLabels, '\n' ∉ label) :
    g.render .ascii limit [root] = g'.render .ascii limit' [root']
      ↔ (g.tree limit root).labels = (g'.tree limit' root').labels := by
  have hrender : ∀ (g : Graph) (limit : DepthLimit) (root : Path),
      g.render .ascii limit [root] = (g.tree limit root).labels.drawing := by
    intro g limit root
    rw [← Tree.drawing_eq_drawing_labels]
    simp [render]
  rw [hrender, hrender]
  constructor
  · intro heq
    have hread := congrArg LabelTree.ofDrawing? heq
    rw [LabelTree.ofDrawing?_drawing h, LabelTree.ofDrawing?_drawing h'] at hread
    exact Option.some.inj hread
  · intro heq
    rw [heq]

def rowLabelGraph : Graph :=
  (empty.mark (.ofText "/p/A.vue".toList)).link (.ofText "/p/A.vue".toList)
    (.ofText "/p/    └── B.vue".toList)

def emptyLabelGraph : Graph :=
  let app := Path.ofText "/p/A.vue".toList
  let nameless := Path.ofText []
  ((((empty.mark app).mark nameless).link app nameless).link nameless nameless).link nameless
    (.ofText "/p/B.vue".toList)

theorem render_ascii_ne_emptyLabelGraph :
    let root := Path.ofText "/p/A.vue".toList
    (∀ label ∈ (rowLabelGraph.tree .unlimited root).labels.allLabels, '\n' ∉ label)
      ∧ (∀ label ∈ (emptyLabelGraph.tree ⟨some 3⟩ root).labels.allLabels, '\n' ∉ label)
      ∧ rowLabelGraph.render .ascii .unlimited [root]
        ≠ emptyLabelGraph.render .ascii ⟨some 3⟩ [root] := by
  intro root
  have h : ∀ label ∈ (rowLabelGraph.tree .unlimited root).labels.allLabels, '\n' ∉ label := by
    decide +kernel
  have h' : ∀ label ∈ (emptyLabelGraph.tree ⟨some 3⟩ root).labels.allLabels, '\n' ∉ label := by
    decide +kernel
  refine ⟨h, h', ?_⟩
  rw [ne_eq, render_ascii_eq_iff h h']
  intro heq
  have hlabels := congrArg LabelTree.allLabels heq
  revert hlabels
  decide +kernel

end Graph

end ComponentTree
