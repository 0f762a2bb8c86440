import ComponentTree.Proofs.Build.Covered

/-!
This module contains where edges lead, for any loader: the target of an edge has been visited, so
that the source it leads to is marked if it can be read, and nodes are marked under canonical paths.
-/

namespace ComponentTree

namespace Graph

theorem exists_mem_paths_of_contains {g : Graph} {p : Path} (h : g.contains p) :
    ∃ k ∈ g.paths, k.Same p := by
  rw [contains_iff, List.mem_map] at h
  rcases h with ⟨node, hnode, hsame⟩
  exact ⟨node.path, List.mem_map_of_mem hnode, hsame⟩

theorem mem_dependencies_link {g : Graph} {source target p q : Path}
    (h : q ∈ (g.link source target).dependencies p) : q ∈ g.dependencies p ∨ q = target := by
  by_cases hsource : p.Same source
  case neg =>
    rw [g.dependencies_link_of_not_same target hsource] at h
    exact .inl h
  case pos =>
    rw [dependencies_congr _ hsource] at h ⊢
    have hmarked := contains_of_mem_dependencies h
    rw [contains_link] at hmarked
    rw [g.dependencies_link_self target hmarked] at h
    split at h
    next => exact .inl h
    next =>
      rw [List.mem_append, List.mem_singleton] at h
      exact h

end Graph

namespace Build

variable {candidates : CandidateSet} {loader : Loader} {g : Graph} {s : Progress}

structure Linked (candidates : CandidateSet) (loader : Loader) (g : Graph) : Prop where
  canonical : ∀ p ∈ g.paths, ∃ q, loader.canonical q = .ok p
  target : ∀ p, ∀ q ∈ g.dependencies p, q ∈ candidates.files ∧ Settled loader g q

namespace Linked

theorem start : Linked candidates loader .empty where
  canonical := by
    intro p hp
    cases hp
  target := by
    intro p q hq
    cases hq

theorem openSource {p : Path} (hcanonical : ∀ k ∈ s.graph.paths, ∃ q, loader.canonical q = .ok k)
    (htarget : ∀ k, ∀ q ∈ s.graph.dependencies k,
      q ∈ candidates.files ∧ (Settled loader s.graph q ∨ q = p)) :
    Linked candidates loader (openSource loader s p).1.graph := by
  have hsettled : Settled loader (Build.openSource loader s p).1.graph p := settled_openSource s p
  have hopened : Opened loader s p (Build.openSource loader s p) := opened_openSource
  generalize Build.openSource loader s p = result at hsettled hopened
  have htarget' : ∀ k, ∀ q ∈ s.graph.dependencies k,
      q ∈ candidates.files ∧ Settled loader result.1.graph q := by
    -- What has been settled stays so, as no mark is taken away.
    intro k q hq
    rcases htarget k q hq with ⟨hmem, hq | rfl⟩
    · refine ⟨hmem, hq.mono ?_⟩
      intro k
      exact contains_of_opened hopened
    · exact ⟨hmem, hsettled⟩
  cases hopened with
  | missed => exact ⟨hcanonical, htarget'⟩
  | revisited => exact ⟨hcanonical, htarget'⟩
  | unread => exact ⟨hcanonical, htarget'⟩
  | @visited node source hnode hfresh htext =>
    constructor
    · intro k hk
      rw [Graph.paths_mark _ hfresh, List.mem_append, List.mem_singleton] at hk
      rcases hk with hk | rfl
      · exact hcanonical k hk
      · exact ⟨p, hnode⟩
    · intro k q hq
      rw [Graph.dependencies_mark] at hq
      exact htarget' k q hq

theorem followOne (h : Linked candidates loader s.graph) (x : Pending) :
    Linked candidates loader (followOne candidates loader s x).1.graph := by
  unfold Build.followOne
  split
  next => exact h
  next target hname =>
    apply openSource
    · rw [Progress.graph_link, Graph.paths_link]
      exact h.canonical
    · intro k q hq
      rw [Progress.graph_link] at hq ⊢
      rcases Graph.mem_dependencies_link hq with hq | rfl
      · rcases h.target k q hq with ⟨hmem, hsettled⟩
        refine ⟨hmem, .inl (hsettled.mono ?_)⟩
        simp
      · exact ⟨CandidateSet.mem_of_resolve? hname, .inr rfl⟩

theorem visit (h : Linked candidates loader s.graph) (p : Path) :
    Linked candidates loader (visit candidates loader s p).graph := by
  apply follow_invariant (P := fun s _ => Linked candidates loader s.graph)
  · intro s x pending h
    exact h.followOne x
  · apply openSource h.canonical
    intro k q hq
    rcases h.target k q hq with ⟨hmem, hsettled⟩
    exact ⟨hmem, .inl hsettled⟩

theorem addEntries (entries : List Path) :
    Linked candidates loader (addEntries candidates loader .start entries).2.graph := by
  refine addEntries_invariant (P := fun _ s => Linked candidates loader s.graph) ?_ ?_ [] .start
    .start entries
  · intro _ s _ _ h
    exact h
  · intro _ s p h
    exact h.visit p

end Linked

end Build

end ComponentTree
