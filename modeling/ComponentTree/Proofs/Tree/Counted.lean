import ComponentTree.Proofs.Tree.Chains
import ComponentTree.Proofs.Tree.Walks

/-!
This module contains how deep a graph is walked along to print it. The files that stand above each
other are nodes, each of them once, so that no file is printed more edges below its root than there
are nodes. A counter of the depth has to go one further at most, whether or not there is a limit, and
a limit of as many levels cuts nothing off.
-/

namespace ComponentTree

namespace Graph

def nestedWithin (g : Graph) (limit : DepthLimit) (last : Nat) (above : List Path) (depth : Nat)
    (p : Path) : Option Tree :=
  if (p :: above).countP (fun q => q.Same p) > 1 then some (.node p [])
  else if depth < last then
    if limit.allows (depth + 1) = true then
      ((g.dependencies p).mapM (g.nestedWithin limit last (p :: above) (depth + 1))).map (.node p)
    else some (.node p [])
  else none
termination_by last - depth

def drawnWithin (g : Graph) (limit : DepthLimit) (last : Nat) (above : List Path) (depth : Nat)
    (p : Path) (indent : Text) : Option (List Text) :=
  if limit.allows depth = true then
    ((g.dependencies p).zipIdx.mapM fun ((q, i) : Path × Nat) =>
      let isLast : Bool := i = (g.dependencies p).length - 1
      let line := indent ++ Tree.branch isLast ++ q.label
      if (p :: above).any (fun a => a.Same q) = true then some [line]
      else if depth < last then
        (g.drawnWithin limit last (p :: above) (depth + 1) q
          (indent ++ Tree.belowBranch isLast)).map (line :: ·)
      else none).map List.flatten
  else some []
termination_by last - depth

def listedWithin (g : Graph) (limit : DepthLimit) (last : Nat) (above : List Path) (depth : Nat)
    (p : Path) : Option (List Text) :=
  let indent := Tree.itemIndent depth
  let item (expand : Bool) (list : List Text) : List Text :=
    [indent ++ "<li>".toList, indent ++ "  ".toList ++ Tree.labelElement expand p.label] ++ list
      ++ [indent ++ "</li>".toList]
  if above.any (fun a => a.Same p) = true ∨ g.dependencies p = [] then some (item false [])
  else if depth < last then
    if limit.allows (depth + 1) = true then
      ((g.dependencies p).mapM (g.listedWithin limit last (p :: above) (depth + 1))).map fun items =>
        item true ([indent ++ "  <ul>".toList] ++ items.flatten ++ [indent ++ "  </ul>".toList])
    else some (item false [])
  else none
termination_by last - depth

variable {g : Graph} {limit : DepthLimit}

theorem nestedWithin_eq_some {last : Nat} {above : List Path} {depth : Nat} {p : Path}
    (h : depth + g.countBeyond above < last) :
    g.nestedWithin limit last above depth p = some (g.treeBelow limit above depth p) := by
  have hdepth : depth < last := by omega
  induction above, depth, p using treeBelow.induct g limit with
  | case1 above depth p hcut =>
    rw [nestedWithin, (g.unfolds_treeBelow limit).cut hcut]
    simp only [countP_same_cons_gt_one_iff]
    rcases hcut with hrepeated | hdeep
    · rw [if_pos hrepeated]
    · simp [hdepth, hdeep]
  | case2 above depth p hcut ih =>
    rw [not_or, Bool.not_eq_true, Bool.not_eq_false] at hcut
    have hbelow : ∀ q ∈ g.dependencies p,
        g.nestedWithin limit last (p :: above) (depth + 1) q
          = some (g.treeBelow limit (p :: above) (depth + 1) q) := by
      intro q hq
      have := countBeyond_cons_lt (contains_of_mem_dependencies hq) hcut.1
      apply ih q hq
      · omega
      · omega
    rw [nestedWithin, (g.unfolds_treeBelow limit).expand (by simp [hcut])]
    simp only [countP_same_cons_gt_one_iff]
    rw [if_neg (by simp [hcut.1]), if_pos hdepth, if_pos hcut.2, mapM_eq_some_map hbelow]
    rfl

theorem drawnWithin_eq_some {last : Nat} {above : List Path} {depth : Nat} {p : Path}
    (hp : above.any (fun a => a.Same p) = false) (indent : Text)
    (h : depth + g.countBeyond above < last) :
    g.drawnWithin limit last above (depth + 1) p indent
      = some (Tree.forestLines indent (g.treeBelow limit above depth p).children) := by
  induction above, depth, p using treeBelow.induct g limit generalizing indent with
  | case1 above depth p hcut =>
    have hdeep : limit.allows (depth + 1) = false := by simpa [hp] using hcut
    rw [drawnWithin, (g.unfolds_treeBelow limit).cut hcut, hdeep]
    rfl
  | case2 above depth p hcut ih =>
    have hallows : limit.allows (depth + 1) = true := by simpa [hp] using hcut
    rw [drawnWithin, (g.unfolds_treeBelow limit).expand hcut, Tree.children,
      Tree.forestLines_eq_flatMap_zipIdx, List.zipIdx_map, List.flatMap_map, List.length_map,
      if_pos hallows]
    apply map_flatten_mapM_eq_some
    rintro ⟨q, i⟩ hq
    have hq := List.fst_mem_of_mem_zipIdx hq
    have := countBeyond_cons_lt (contains_of_mem_dependencies hq) hp
    rw [Tree.branchLines_eq_cons]
    simp only [Prod.map_apply, id_eq, path_treeBelow]
    split
    next hrepeated =>
      rw [(g.unfolds_treeBelow limit).cut (.inl hrepeated)]
      rfl
    next hfresh =>
      rw [if_pos (by omega), ih q hq (by simpa using hfresh) _ (by omega)]
      rfl

theorem listedWithin_eq_some {last : Nat} {above : List Path} {depth : Nat} {p : Path}
    (h : depth + g.countBeyond above < last) :
    g.listedWithin limit last above depth p
      = some ((g.treeBelow limit above depth p).itemLines depth) := by
  have hdepth : depth < last := by omega
  induction above, depth, p using treeBelow.induct g limit with
  | case1 above depth p hcut =>
    rw [listedWithin, (g.unfolds_treeBelow limit).cut hcut]
    dsimp only
    split
    next => rfl
    next hexpand =>
      have hdeep : limit.allows (depth + 1) = false := by
        apply hcut.resolve_left
        intro hrepeated
        exact hexpand (.inl hrepeated)
      simp only [hdeep]
      rfl
  | case2 above depth p hcut ih =>
    rw [not_or, Bool.not_eq_true, Bool.not_eq_false] at hcut
    have hbelow : ∀ q ∈ g.dependencies p,
        g.listedWithin limit last (p :: above) (depth + 1) q
          = some ((g.treeBelow limit (p :: above) (depth + 1) q).itemLines (depth + 1)) := by
      intro q hq
      have := countBeyond_cons_lt (contains_of_mem_dependencies hq) hcut.1
      apply ih q hq
      · omega
      · omega
    rw [listedWithin, (g.unfolds_treeBelow limit).expand (by simp [hcut]), Tree.itemLines_node,
      mapM_eq_some_map hbelow]
    cases hdependencies : g.dependencies p with
    | nil => simp
    | cons q rest => simp [hcut, hdepth, List.flatMap_def, Function.comp_def]

/--
The text of `render`, with a counter of the depth that has no number after `last`. There is none if
the counter does not go far enough.
-/
def renderWithin (g : Graph) (last : Nat) (format : OutputFormat) (limit : DepthLimit)
    (roots : List Path) : Option Text :=
  match format with
  | .ascii => (roots.mapM fun root => (g.drawnWithin limit last [] 1 root []).map fun lines =>
      Text.unlines (root.label :: lines)).map List.flatten
  | .html => (roots.mapM fun root => (g.listedWithin limit last [] 0 root).map fun lines =>
      "    <ul class=\"tree-root\">".toList :: lines ++ ["    </ul>".toList]).map fun lists =>
        Text.unlines (Tree.pageOpening.map String.toList) ++ Text.unlines lists.flatten
          ++ '\n' :: Text.unlines (Tree.pageClosing.map String.toList)
  | .json => (roots.mapM (g.nestedWithin limit last [] 0)).map Tree.jsonDocument

theorem countBeyond_nil (g : Graph) : g.countBeyond [] = g.size := by
  simp [countBeyond, size]

theorem renderWithin_eq_some (g : Graph) {last : Nat} (h : g.size < last) (format : OutputFormat)
    (limit : DepthLimit) (roots : List Path) :
    g.renderWithin last format limit roots = some (g.render format limit roots) := by
  have hcount : 0 + g.countBeyond [] < last := by
    rw [countBeyond_nil]
    omega
  cases format with
  | ascii =>
    rw [renderWithin, render, List.flatMap_map]
    apply map_flatten_mapM_eq_some
    intro root _
    rw [drawnWithin_eq_some rfl [] hcount, Option.map_some, Tree.drawing, Tree.drawingLines, tree,
      path_treeBelow]
  | html =>
    have hlists : ∀ root ∈ roots, (g.listedWithin limit last [] 0 root).map (fun lines =>
        "    <ul class=\"tree-root\">".toList :: lines ++ ["    </ul>".toList])
        = some (g.tree limit root).rootListLines := by
      intro root _
      rw [listedWithin_eq_some hcount]
      rfl
    rw [renderWithin, render, mapM_eq_some_map hlists, Tree.htmlDocument, Tree.htmlLists,
      List.flatMap_map]
    rfl
  | json =>
    have htrees : ∀ root ∈ roots,
        g.nestedWithin limit last [] 0 root = some (g.tree limit root) := by
      intro root _
      exact nestedWithin_eq_some hcount
    rw [renderWithin, render, mapM_eq_some_map htrees]
    rfl

theorem length_le_of_mem_chains_treeBelow {above : List Path} {depth : Nat} {p : Path}
    {walk : List Path} (h : walk ∈ (g.treeBelow limit above depth p).chains) :
    walk.length ≤ g.countBeyond above + 1 := by
  induction above, depth, p using treeBelow.induct g limit generalizing walk with
  | case1 above depth p hcut =>
    rw [chains_treeBelow_of_cut hcut, List.mem_singleton] at h
    rw [h, List.length_singleton]
    omega
  | case2 above depth p hcut ih =>
    rw [chains_treeBelow_of_not_cut hcut, List.mem_cons, List.mem_map] at h
    rw [not_or, Bool.not_eq_true] at hcut
    rcases h with rfl | ⟨rest, hrest, rfl⟩
    · rw [List.length_singleton]
      omega
    · rcases List.mem_flatMap.1 hrest with ⟨q, hq, hrest⟩
      have hrest := ih q hq hrest
      have := countBeyond_cons_lt (contains_of_mem_dependencies hq) hcut.1
      rw [List.length_cons]
      omega

theorem treeBelow_of_dependencies_eq_nil {p : Path} (h : g.dependencies p = []) (above : List Path)
    (depth : Nat) : g.treeBelow limit above depth p = .node p [] := by
  by_cases hcut : above.any (fun a => a.Same p) = true ∨ limit.allows (depth + 1) = false
  · rw [(g.unfolds_treeBelow limit).cut hcut]
  · rw [(g.unfolds_treeBelow limit).expand hcut, h]
    rfl

theorem treeBelow_eq_unlimited {levels : Nat} {above : List Path} {depth : Nat} {p : Path}
    (h : depth + g.countBeyond above ≤ levels) :
    g.treeBelow ⟨some levels⟩ above depth p = g.treeBelow .unlimited above depth p := by
  induction above, depth, p using treeBelow.induct g .unlimited with
  | case1 above depth p hcut =>
    have hrepeated : above.any (fun a => a.Same p) = true := by
      apply hcut.resolve_right
      simp [DepthLimit.allows, DepthLimit.unlimited]
    rw [(g.unfolds_treeBelow _).cut (.inl hrepeated), (g.unfolds_treeBelow _).cut (.inl hrepeated)]
  | case2 above depth p hcut ih =>
    by_cases hdependencies : g.dependencies p = []
    · rw [treeBelow_of_dependencies_eq_nil hdependencies,
        treeBelow_of_dependencies_eq_nil hdependencies]
    · -- `p` is a node that does not stand above itself, so the limit is not reached here.
      obtain ⟨q, hq⟩ := List.exists_mem_of_ne_nil _ hdependencies
      have hfresh : above.any (fun a => a.Same p) = false := by simpa using (not_or.1 hcut).1
      have hlt := countBeyond_cons_lt (contains_of_mem_dependencies hq) hfresh
      have hallows : DepthLimit.allows ⟨some levels⟩ (depth + 1) = true := by
        simp only [DepthLimit.allows, Option.all_some, decide_eq_true_eq]
        omega
      rw [(g.unfolds_treeBelow _).expand hcut,
        (g.unfolds_treeBelow _).expand (by simp [hfresh, hallows])]
      congr 1
      apply List.map_congr_left
      intro q hq
      apply ih q hq
      omega

theorem tree_eq_unlimited {levels : Nat} (h : g.size ≤ levels) :
    g.tree ⟨some levels⟩ = g.tree .unlimited := by
  funext root
  apply treeBelow_eq_unlimited
  rw [countBeyond_nil, Nat.zero_add]
  exact h

theorem renderWithin_size_and_render_eq_unlimited (g : Graph) (format : OutputFormat)
    (roots : List Path) :
    (∀ limit last, g.size < last →
        g.renderWithin last format limit roots = some (g.render format limit roots))
      ∧ (∀ limit root, ∀ walk ∈ (g.tree limit root).chains, walk.length - 1 ≤ g.size)
      ∧ ∀ levels, g.size ≤ levels →
        g.render format ⟨some levels⟩ roots = g.render format .unlimited roots := by
  refine ⟨?_, ?_, ?_⟩
  · intro limit last hlast
    exact g.renderWithin_eq_some hlast format limit roots
  · intro limit root walk hwalk
    have := length_le_of_mem_chains_treeBelow hwalk
    rw [countBeyond_nil] at this
    omega
  · intro levels hlevels
    unfold render
    rw [tree_eq_unlimited hlevels]

def mutualGraph : Graph :=
  let a := Path.ofText "/p/A.vue".toList
  let b := Path.ofText "/p/B.vue".toList
  (((empty.mark a).mark b).link a b).link b a

theorem renderWithin_size_and_render_eq_unlimited_mutualGraph :
    let root := Path.ofText "/p/A.vue".toList
    mutualGraph.size ≤ 2
      ∧ (mutualGraph.renderWithin 3 .html .unlimited [root]).isSome
      ∧ mutualGraph.render .ascii ⟨some 2⟩ [root] = "A.vue\n└── B.vue\n    └── A.vue\n".toList
      ∧ mutualGraph.render .ascii ⟨some 1⟩ [root] ≠ mutualGraph.render .ascii .unlimited [root] := by
  intro root
  have hsize : mutualGraph.size ≤ 2 := by decide +kernel
  refine ⟨hsize, ?_, ?_, by decide +kernel⟩
  · rw [(renderWithin_size_and_render_eq_unlimited mutualGraph .html [root]).1 _ 3
      (Nat.lt_succ_of_le hsize)]
    rfl
  · rw [(renderWithin_size_and_render_eq_unlimited mutualGraph .ascii [root]).2.2 2 hsize]
    decide +kernel

end Graph

end ComponentTree
