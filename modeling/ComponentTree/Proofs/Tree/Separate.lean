import ComponentTree.Proofs.Build.Closure
import ComponentTree.Proofs.Tree.Unfolds
import ComponentTree.Render

/-!
This module contains that entries which are visited on one graph have no influence on each other:
what is printed for each of them is what is printed for it alone.
-/

namespace ComponentTree.Build

variable {candidates : CandidateSet} {loader : Loader} {roots roots' : List Path} {g g' : Graph}

def trees (candidates : CandidateSet) (loader : Loader) (limit : DepthLimit) (entries : List Path) :
    List Tree :=
  let built := addEntries candidates loader .start entries
  built.1.map (built.2.graph.tree limit)

def treeAlone (candidates : CandidateSet) (loader : Loader) (limit : DepthLimit) (entry : Path) :
    Tree :=
  (addEntries candidates loader .start [entry]).2.graph.tree limit (shownAs loader entry)

def printed (candidates : CandidateSet) (loader : Loader) (format : OutputFormat)
    (limit : DepthLimit) (entries : List Path) : Text :=
  let built := addEntries candidates loader .start entries
  built.2.graph.render format limit built.1

namespace Complete

theorem contains_of_settled (h : Complete candidates loader roots g) (hloader : loader.Congruent)
    (hidempotent : loader.Idempotent) {p : Path} (hp : Settled loader g' p) (hk : g.contains p) :
    g'.contains p := by
  rcases h.exists_text hk with ⟨source, htext, _⟩
  rcases h.exists_canonical hloader hidempotent hk with ⟨node, hcanonical, hsame⟩
  have hnode := hp node source hcanonical (hloader.text hsame.symm htext)
  rw [Graph.contains_congr g' hsame] at hnode
  exact hnode

variable (h : Complete candidates loader roots g) (h' : Complete candidates loader roots' g')

include h h'

theorem contains_of_subset (hroots : roots ⊆ roots') {k : Path} (hk : g.contains k) :
    g'.contains k := by
  have hclosed : Closed candidates loader roots {k | g'.contains k} :=
    { h'.closed with root := fun hr => h'.closed.root (hroots hr) }
  exact h.least _ hclosed k hk

theorem dependencies_eq (hloader : loader.Congruent) (hidempotent : loader.Idempotent)
    (hroots : roots ⊆ roots') {p : Path} (hp : Visits candidates loader roots g p) :
    g'.dependencies p = g.dependencies p := by
  by_cases hk : g.contains p
  · rcases h.exists_text hk with ⟨source, htext, hdependencies⟩
    rcases h'.exists_text (h.contains_of_subset h' hroots hk) with ⟨source', htext', hdependencies'⟩
    rw [htext] at htext'
    cases htext'
    rw [hdependencies, hdependencies']
  · have hk' : ¬ g'.contains p := by
      intro hk'
      apply hk
      exact h'.contains_of_settled hloader hidempotent (h.settled_of_visits hp) hk'
    rw [Graph.dependencies_eq_nil g hk, Graph.dependencies_eq_nil g' hk']

theorem tree_eq (hloader : loader.Congruent) (hidempotent : loader.Idempotent)
    (hroots : roots ⊆ roots') (limit : DepthLimit) {r : Path} (hr : r ∈ roots) :
    g'.tree limit r = g.tree limit r := by
  apply Graph.treeBelow_eq_of_unfolds (g.unfolds_treeBelow limit)
    (D := Visits candidates loader roots g)
  · intro p hp
    exact h.dependencies_eq h' hloader hidempotent hroots hp
  · intro p hp q hq
    rw [h.dependencies_eq h' hloader hidempotent hroots hp] at hq
    exact (h.visits_of_mem_dependencies hq).1
  · exact .root hr

end Complete

theorem trees_singleton (limit : DepthLimit) (entry : Path) :
    trees candidates loader limit [entry] = [treeAlone candidates loader limit entry] := by
  unfold trees treeAlone
  simp only [addEntries_fst, List.map_cons, List.map_nil]

theorem trees_eq_map (hloader : loader.Congruent) (hidempotent : loader.Idempotent)
    (limit : DepthLimit) (entries : List Path) :
    trees candidates loader limit entries = entries.map (treeAlone candidates loader limit) := by
  unfold trees treeAlone
  simp only [addEntries_fst, List.map_map]
  apply List.map_congr_left
  intro entry hentry
  have h : Complete candidates loader _ _ := .addEntries hloader [entry]
  have h' : Complete candidates loader _ _ := .addEntries hloader entries
  rw [addEntries_fst] at h h'
  apply h.tree_eq h' hloader hidempotent
  · apply List.map_subset
    simpa using hentry
  · apply List.mem_singleton_self

theorem printed_eq_of_separate (candidates : CandidateSet) (loader : Loader)
    (hloader : loader.Congruent) (hidempotent : loader.Idempotent) (entries : List Path)
    (limit : DepthLimit) :
    printed candidates loader .ascii limit entries
        = entries.flatMap (fun entry => printed candidates loader .ascii limit [entry])
      ∧ printed candidates loader .json limit entries
        = Tree.jsonDocument (entries.flatMap fun entry => trees candidates loader limit [entry])
      ∧ printed candidates loader .html limit entries
        = Tree.htmlDocument (entries.flatMap fun entry => trees candidates loader limit [entry])
      ∧ ∀ choice : List (Fin entries.length),
        (trees candidates loader limit (choice.map entries.get)).map some
          = choice.map fun i => (trees candidates loader limit entries)[i.val]? := by
  have htrees : trees candidates loader limit entries
      = entries.flatMap fun entry => trees candidates loader limit [entry] := by
    rw [trees_eq_map hloader hidempotent, List.map_eq_flatMap]
    simp only [trees_singleton]
  refine ⟨?_, ?_, ?_, ?_⟩
  · have hdrawings : ∀ entries, printed candidates loader .ascii limit entries
        = (trees candidates loader limit entries).flatMap Tree.drawing := by
      intro entries
      rfl
    simp only [hdrawings]
    rw [htrees, List.flatMap_assoc]
  · rw [← htrees]
    rfl
  · rw [← htrees]
    rfl
  · intro choice
    rw [trees_eq_map hloader hidempotent, trees_eq_map hloader hidempotent, List.map_map,
      List.map_map]
    apply List.map_congr_left
    intro i _
    simp

theorem printed_eq_of_separate_mutualFiles :
    let candidates := CandidateSet.ofList "vue".toList (mutualFiles.map (·.path))
    let loader := MemoryFile.loader mutualFiles
      [(.ofText "/p/Link.vue".toList, .ofText "/p/A.vue".toList)]
    loader.Congruent ∧ loader.Idempotent
      ∧ printed candidates loader .ascii ⟨some 2⟩
          [.ofText "/p/Link.vue".toList, .ofText "/p/B.vue".toList]
        = printed candidates loader .ascii ⟨some 2⟩ [.ofText "/p/Link.vue".toList]
          ++ printed candidates loader .ascii ⟨some 2⟩ [.ofText "/p/B.vue".toList] := by
  intro candidates loader
  have hloader : loader.Congruent := MemoryFile.congruent_loader _ _
  have hidempotent : loader.Idempotent := by
    apply MemoryFile.idempotent_loader
    decide +kernel
  refine ⟨hloader, hidempotent, ?_⟩
  have := printed_eq_of_separate candidates loader hloader hidempotent
    [.ofText "/p/Link.vue".toList, .ofText "/p/B.vue".toList] ⟨some 2⟩
  rw [this.1]
  simp

end ComponentTree.Build
