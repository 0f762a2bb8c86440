import ComponentTree.Proofs.Build.Closure
import ComponentTree.Proofs.Tree.Unfolds

/-!
This module contains the tree of a root as it is found without a graph, by reading the text of a
file again wherever the file stands in the tree. It is the tree that is printed from the graph,
although the graph was built by reading every source once.
-/

namespace ComponentTree

namespace CandidateSet

def countBeyond (candidates : CandidateSet) (ancestors : List Path) : Nat :=
  candidates.files.countP fun file => !ancestors.any fun a => a.Same file

theorem countBeyond_cons_le (candidates : CandidateSet) (p : Path) (ancestors : List Path) :
    candidates.countBeyond (p :: ancestors) ≤ candidates.countBeyond ancestors := by
  apply List.countP_mono_left
  intro file _ h
  simp only [List.any_cons, Bool.not_or, Bool.and_eq_true] at h
  exact h.2

theorem countBeyond_cons_lt {candidates : CandidateSet} {p : Path} {ancestors : List Path}
    (hp : candidates.contains p) (hfresh : ¬ ancestors.any fun a => a.Same p) :
    candidates.countBeyond (p :: ancestors) < candidates.countBeyond ancestors := by
  unfold contains at hp
  rw [List.any_eq_true] at hp
  rcases hp with ⟨file, hfile, hsame⟩
  rw [decide_eq_true_eq] at hsame
  apply countP_lt_countP (a := file)
  · intro file _ h
    simp only [List.any_cons, Bool.not_or, Bool.and_eq_true] at h
    exact h.2
  · exact hfile
  · simp only [hsame.iff_right]
    simpa using hfresh
  · simp [hsame.symm]

def referencedBy (candidates : CandidateSet) (loader : Loader) (p : Path) : List Path :=
  match loader.canonical p with
  | .error _ => []
  | .ok node =>
    match loader.text node with
    | .error _ => []
    | .ok source => candidates.targets (References.ofSource source).names

theorem contains_of_mem_referencedBy {candidates : CandidateSet} {loader : Loader} {p q : Path}
    (h : q ∈ candidates.referencedBy loader p) : candidates.contains q := by
  unfold referencedBy at h
  split at h
  · cases h
  · split at h
    · cases h
    · rcases exists_of_mem_targets h with ⟨name, _, hname⟩
      apply List.any_eq_true.2
      exact ⟨q, mem_of_resolve? hname, by simp⟩

end CandidateSet

/--
What is printed for `p`, which stands `depth` edges below a root with `ancestors` above it, when the
text of every file is read where the file stands.
-/
def reread (candidates : CandidateSet) (loader : Loader) (limit : DepthLimit)
    (ancestors : List Path) (depth : Nat) (p : Path) : Tree :=
  if _h : ancestors.any (fun a => a.Same p) = true ∨ limit.allows (depth + 1) = false then
    .node p []
  else
    .node p <| (candidates.referencedBy loader p).attach.map fun ⟨q, hq⟩ =>
      reread candidates loader limit (p :: ancestors) (depth + 1) q
termination_by (candidates.countBeyond ancestors, (!candidates.contains p).toNat)
decreasing_by
  by_cases hp : candidates.contains p
  · apply Prod.Lex.left
    apply CandidateSet.countBeyond_cons_lt hp
    simpa using (not_or.1 _h).1
  · -- Only a root is no candidate: what is found in its text is.
    have hq := CandidateSet.contains_of_mem_referencedBy hq
    simp only [hp, hq]
    apply Prod.Lex.right'
    · apply CandidateSet.countBeyond_cons_le
    · decide

theorem unfolds_reread (candidates : CandidateSet) (loader : Loader) (limit : DepthLimit) :
    Unfolds limit (candidates.referencedBy loader) (reread candidates loader limit) where
  cut := by
    intro ancestors depth p h
    rw [reread]
    simp only [h, ↓reduceDIte]
  expand := by
    intro ancestors depth p h
    rw [reread]
    simp only [h, ↓reduceDIte, List.map_attach_eq_pmap, List.pmap_eq_map]

namespace Build

variable {candidates : CandidateSet} {loader : Loader} {roots : List Path} {g : Graph}

theorem Complete.dependencies_eq_referencedBy (h : Complete candidates loader roots g)
    (hloader : loader.Congruent) (hidempotent : loader.Idempotent) {p : Path}
    (hvisits : Visits candidates loader roots g p)
    (hp : ∀ node, loader.canonical p = .ok node → node.Same p) :
    g.dependencies p = candidates.referencedBy loader p := by
  unfold CandidateSet.referencedBy
  by_cases hmarked : g.contains p
  -- The text was read at the canonical path, which may be another spelling of `p`.
  · rcases h.exists_text hmarked with ⟨source, htext, hdependencies⟩
    rcases h.exists_canonical hloader hidempotent hmarked with ⟨node, hcanonical, hsame⟩
    rw [hcanonical]
    simp only [hloader.text hsame.symm htext]
    exact hdependencies
  -- Had `p` a text, then the visit that led to it would have marked it.
  · rw [Graph.dependencies_eq_nil g hmarked]
    split
    next => rfl
    next node hcanonical =>
      split
      next => rfl
      next source htext =>
        have hnode := h.settled_of_visits hvisits node source hcanonical htext
        rw [Graph.contains_congr g (hp node hcanonical)] at hnode
        contradiction

theorem tree_eq_reread (candidates : CandidateSet) (loader : Loader) (hloader : loader.Congruent)
    (hidempotent : loader.Idempotent) (hkeeps : loader.Keeps candidates) (entries : List Path)
    (limit : DepthLimit) :
    let built := addEntries candidates loader .start entries
    ∀ (i : Nat) (entry root node : Path), entries[i]? = some entry → built.1[i]? = some root →
      loader.canonical entry = .ok node →
      built.2.graph.tree limit root = reread candidates loader limit [] 0 root := by
  intro built i entry root node hentry hroot hcanonical
  have h : Complete candidates loader built.1 built.2.graph := .addEntries hloader entries
  have hnode : root = node := by
    have hbuilt : built.1[i]? = some (shownAs loader entry) := by
      rw [addEntries_fst, List.getElem?_map, hentry]
      rfl
    rw [hroot] at hbuilt
    cases hbuilt
    unfold shownAs
    rw [hcanonical]
  apply Graph.treeBelow_eq_of_unfolds (unfolds_reread candidates loader limit)
    (D := fun p => Visits candidates loader built.1 built.2.graph p
      ∧ ∀ node, loader.canonical p = .ok node → node.Same p)
  · rintro p ⟨hvisits, hp⟩
    exact h.dependencies_eq_referencedBy hloader hidempotent hvisits hp
  · rintro p _ q hq
    rcases h.visits_of_mem_dependencies hq with ⟨hvisits, hmem⟩
    exact ⟨hvisits, hkeeps q hmem⟩
  · refine ⟨.root (List.mem_of_getElem? hroot), ?_⟩
    intro node' hcanonical'
    rcases hidempotent entry node hcanonical with ⟨node'', hcanonical'', hsame⟩
    rw [hnode, hcanonical''] at hcanonical'
    cases hcanonical'
    rw [hnode]
    exact hsame

theorem tree_eq_reread_mutualFiles :
    let candidates := CandidateSet.ofList "vue".toList (mutualFiles.map (·.path))
    let loader := MemoryFile.loader mutualFiles
      [(.ofText "/p/Link.vue".toList, .ofText "/p/A.vue".toList)]
    let built := addEntries candidates loader .start
      [.ofText "/p/B.vue".toList, .ofText "/p/Link.vue".toList]
    loader.Congruent ∧ loader.Idempotent ∧ loader.Keeps candidates
      ∧ loader.canonical (.ofText "/p/Link.vue".toList) = .ok (.ofText "/p/A.vue".toList)
      ∧ built.2.graph.tree ⟨some 2⟩ (.ofText "/p/A.vue".toList)
        = reread candidates loader ⟨some 2⟩ [] 0 (.ofText "/p/A.vue".toList) := by
  intro candidates loader built
  have hloader : loader.Congruent := MemoryFile.congruent_loader _ _
  have hidempotent : loader.Idempotent := by
    apply MemoryFile.idempotent_loader
    decide +kernel
  have hkeeps : loader.Keeps candidates := by
    apply MemoryFile.keeps_loader
    decide +kernel
  have hcanonical : loader.canonical (.ofText "/p/Link.vue".toList)
      = .ok (.ofText "/p/A.vue".toList) := by decide +kernel
  refine ⟨hloader, hidempotent, hkeeps, hcanonical, ?_⟩
  have hroots : built.1[1]? = some (.ofText "/p/A.vue".toList) := by
    unfold built
    rw [addEntries_fst]
    decide +kernel
  exact tree_eq_reread candidates loader hloader hidempotent hkeeps _ _ 1
    (.ofText "/p/Link.vue".toList) _ _ rfl hroots hcanonical

end Build

end ComponentTree
