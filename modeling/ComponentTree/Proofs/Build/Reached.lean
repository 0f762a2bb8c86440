import ComponentTree.Proofs.Build.Closure

/-!
This module contains what a single visit does to a graph in any state, also to one whose nodes have
only some of their dependencies since their names are still being followed. The visit finds the
sources that are reached through new ones alone: the nodes of the graph it starts with block the way
to what they refer to, and stay as they are.
-/

namespace ComponentTree.Build

variable {candidates : CandidateSet} {loader : Loader} {base : Graph} {p : Path}

/--
The sources that are reached from `p` and new to the graph `base`: the one that `p` leads to, and
those that the names in a source so reached lead to. Each can be read and is no node of `base`.
-/
inductive Reached (candidates : CandidateSet) (loader : Loader) (base : Graph) (p : Path) :
    Path → Prop where
  | first {node : Path} {source : Text} (hcanonical : loader.canonical p = .ok node)
      (htext : loader.text node = .ok source) (hfresh : ¬ base.contains node) :
    Reached candidates loader base p node
  | next {k target node : Path} {name : Name} {source source' : Text}
      (hk : Reached candidates loader base p k) (htext : loader.text k = .ok source)
      (hname : name ∈ (References.ofSource source).names)
      (htarget : candidates.resolve? name = some target)
      (hcanonical : loader.canonical target = .ok node) (htext' : loader.text node = .ok source')
      (hfresh : ¬ base.contains node) :
    Reached candidates loader base p node

theorem Reached.not_contains {k : Path} (h : Reached candidates loader base p k) :
    ¬ base.contains k := by
  cases h with
  | first _ _ hfresh => exact hfresh
  | next _ _ _ _ _ _ hfresh => exact hfresh

theorem reached_of_contains_visit (hloader : loader.Congruent) {s : Progress} {k : Path}
    (hk : (visit candidates loader s p).graph.contains k) :
    s.graph.contains k ∨ ∃ node, Reached candidates loader s.graph p node ∧ node.Same k := by
  have hstart : Underway candidates loader s.graph s.graph [] := .start s.graph
  refine mem_visit (K := {k | ∃ node, Reached candidates loader s.graph p node ∧ node.Same k})
    hloader ?_ ?_ hstart ?_ ?_ k hk
  · rintro k k' hsame ⟨node, hnode, hk⟩
    exact ⟨node, hnode, hk.trans hsame⟩
  · rintro k source name target node source' ⟨k', hk', hsame⟩ _ htext hname htarget hcanonical
      htext' hfresh
    refine ⟨node, .next hk' ?_ hname htarget hcanonical htext' hfresh, .refl node⟩
    exact hloader.text hsame.symm htext
  · intro node source hcanonical htext hfresh
    exact ⟨node, .first hcanonical htext hfresh, .refl node⟩
  · intro k hk
    exact .inl hk

theorem Reached.contains_visit (hloader : loader.Congruent) {s : Progress} {k : Path}
    (h : Reached candidates loader s.graph p k) :
    (visit candidates loader s p).graph.contains k := by
  have hcovered : Covered candidates loader s.graph (visit candidates loader s p).graph [] :=
    (Covered.start s.graph).visit hloader p
  induction h with
  | first hcanonical htext _ =>
    apply settled_visit
    · exact hcanonical
    · exact htext
  | @next k target node name source source' hk htext hname htarget hcanonical htext' _ ih =>
    -- `k` is new, so the visit has followed all of its names.
    rcases hcovered k source ih hk.not_contains htext name hname with hpending | hsettled
    · cases hpending
    · exact hsettled target htarget node source' hcanonical htext'

theorem contains_visit_iff (hloader : loader.Congruent) {s : Progress} {k : Path} :
    (visit candidates loader s p).graph.contains k
      ↔ s.graph.contains k ∨ ∃ node, Reached candidates loader s.graph p node ∧ node.Same k := by
  constructor
  · apply reached_of_contains_visit hloader
  · rintro (hk | ⟨node, hnode, hsame⟩)
    · apply contains_visit
      exact hk
    · rw [← Graph.contains_congr _ hsame]
      exact hnode.contains_visit hloader

theorem exists_text_of_contains_visit (hloader : loader.Congruent) {s : Progress} {k : Path}
    (hk : (visit candidates loader s p).graph.contains k) (hfresh : ¬ s.graph.contains k) :
    ∃ source, loader.text k = .ok source ∧ (visit candidates loader s p).graph.dependencies k
      = candidates.targets (References.ofSource source).names := by
  have hunderway : Underway candidates loader s.graph (visit candidates loader s p).graph [] :=
    (Underway.start s.graph).visit hloader p
  rcases hunderway.listed k hk hfresh with ⟨source, done, htext, hnames, hdependencies⟩
  have hdone : (References.ofSource source).names = done := by
    rw [hnames]
    exact List.append_nil done
  refine ⟨source, htext, ?_⟩
  rw [hdone, hdependencies]

theorem contains_visit_iff_and_dependencies (candidates : CandidateSet) (loader : Loader)
    (hloader : loader.Congruent) (s : Progress) (p : Path) :
    let after := (visit candidates loader s p).graph
    (∀ k, after.contains k
        ↔ s.graph.contains k ∨ ∃ node, Reached candidates loader s.graph p node ∧ node.Same k)
      ∧ (∀ k, s.graph.contains k → after.dependencies k = s.graph.dependencies k)
      ∧ (∀ k, after.contains k → ¬ s.graph.contains k → ∃ source, loader.text k = .ok source
        ∧ after.dependencies k = candidates.targets (References.ofSource source).names)
      ∧ (after = s.graph ↔ ∀ node source, loader.canonical p = .ok node →
        loader.text node = .ok source → s.graph.contains node) := by
  intro after
  have hunderway : Underway candidates loader s.graph after [] :=
    (Underway.start s.graph).visit hloader p
  refine ⟨?_, ?_, ?_, ?_⟩
  · intro k
    exact contains_visit_iff hloader
  · intro k hk
    exact (hunderway.kept k hk).2
  · intro k hk hfresh
    exact exists_text_of_contains_visit hloader hk hfresh
  · exact graph_visit_eq_iff s p

def ringFiles : List MemoryFile :=
  [⟨.ofText "/p/A.vue".toList, some "<B /><Broken />".toList⟩,
    ⟨.ofText "/p/B.vue".toList, some "<Broken /><C />".toList⟩,
    ⟨.ofText "/p/C.vue".toList, some "<A />".toList⟩,
    ⟨.ofText "/p/Broken.vue".toList, none⟩]

theorem contains_visit_iff_and_dependencies_ringFiles :
    let candidates := CandidateSet.ofList "vue".toList (ringFiles.map (·.path))
    let loader := MemoryFile.loader ringFiles []
    let a := Path.ofText "/p/A.vue".toList
    let b := Path.ofText "/p/B.vue".toList
    let broken := Path.ofText "/p/Broken.vue".toList
    let s : Progress := { Progress.start with graph := (Graph.empty.mark b).link b broken }
    let after := (visit candidates loader s a).graph
    loader.Congruent ∧ after.dependencies a = [b, broken] ∧ after.dependencies b = [broken]
      ∧ ¬ after.contains (.ofText "/p/C.vue".toList) := by
  intro candidates loader a b broken s after
  have hloader : loader.Congruent := MemoryFile.congruent_loader ringFiles []
  have hvisit := contains_visit_iff_and_dependencies candidates loader hloader s a
  rcases hvisit with ⟨hcontains, hkept, hnew, _⟩
  have hcanonical : loader.canonical a = .ok a := by decide +kernel
  have htext : loader.text a = .ok "<B /><Broken />".toList := by decide +kernel
  have hfresh : ¬ s.graph.contains a := by decide +kernel
  refine ⟨hloader, ?_, ?_, ?_⟩
  · have hmarked := (hcontains a).2 (.inr ⟨a, .first hcanonical htext hfresh, .refl a⟩)
    rcases hnew a hmarked hfresh with ⟨source, htext', hdependencies⟩
    rw [htext] at htext'
    cases htext'
    rw [hdependencies]
    decide +kernel
  · rw [hkept b (by decide +kernel)]
    decide +kernel
  · -- Of the two files that `a` refers to, one is a node already and the other one is unreadable.
    have honly : ∀ k, Reached candidates loader s.graph a k → k = a := by
      intro k hk
      induction hk with
      | first hcanonical' _ _ =>
        rw [hcanonical] at hcanonical'
        cases hcanonical'
        rfl
      | @next k target node name source source' _ htext' hname htarget hcanonical' htext'' hfresh'
          ih =>
        rw [ih, htext] at htext'
        cases htext'
        have hnames : (References.ofSource "<B /><Broken />".toList).names
            = ["B".toList, "Broken".toList] := by decide +kernel
        rw [hnames, List.mem_cons, List.mem_singleton] at hname
        rcases hname with rfl | rfl
        · have hb : candidates.resolve? "B".toList = some b := by decide +kernel
          have hcanonicalB : loader.canonical b = .ok b := by decide +kernel
          rw [hb] at htarget
          cases htarget
          rw [hcanonicalB] at hcanonical'
          cases hcanonical'
          exact absurd (by decide +kernel) hfresh'
        · have hbroken : candidates.resolve? "Broken".toList = some broken := by decide +kernel
          have hcanonicalBroken : loader.canonical broken = .ok broken := by decide +kernel
          have htextBroken : loader.text broken = .error .accessDenied := by decide +kernel
          rw [hbroken] at htarget
          cases htarget
          rw [hcanonicalBroken] at hcanonical'
          cases hcanonical'
          rw [htextBroken] at htext''
          cases htext''
    rw [hcontains]
    rintro (hc | ⟨node, hnode, hsame⟩)
    · revert hc
      decide +kernel
    · rw [honly node hnode] at hsame
      revert hsame
      decide +kernel

end ComponentTree.Build
