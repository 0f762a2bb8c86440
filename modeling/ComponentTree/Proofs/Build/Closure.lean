import Mathlib.Order.Bounds.Basic
import ComponentTree.Proofs.Build.Covered

/-!
This module contains what the graph is after all entries have been visited. Its nodes are the least
set that holds the sources of the roots and, with a source, those of the files that its names stand
for; and the dependencies of a node are the files that the names of its source stand for.
-/

namespace ComponentTree.Build

variable {candidates : CandidateSet} {loader : Loader} {base g : Graph} {roots : List Path}

/--
A set of paths, whatever their spelling, that holds the sources of the roots and, with a source,
those of the files that its names stand for.
-/
structure Closed (candidates : CandidateSet) (loader : Loader) (roots : List Path)
    (K : Set Path) : Prop where
  same {p q : Path} : p.Same q → p ∈ K → q ∈ K
  root {r node : Path} {source : Text} : r ∈ roots → loader.canonical r = .ok node →
    loader.text node = .ok source → node ∈ K
  target {k target node : Path} {name : Name} {source source' : Text} : k ∈ K →
    loader.text k = .ok source → name ∈ (References.ofSource source).names →
    candidates.resolve? name = some target → loader.canonical target = .ok node →
    loader.text node = .ok source' → node ∈ K

theorem mem_of_opened {K : Set Path} (hsame : ∀ p q, p.Same q → p ∈ K → q ∈ K) {s : Progress}
    {p : Path} {result : Progress × List Pending} (hopened : Opened loader s p result)
    (hp : ∀ node source, loader.canonical p = .ok node → loader.text node = .ok source →
      ¬ base.contains node → node ∈ K)
    (h : ∀ k, s.graph.contains k → base.contains k ∨ k ∈ K) :
    ∀ k, result.1.graph.contains k → base.contains k ∨ k ∈ K := by
  cases hopened with
  | missed => exact h
  | revisited => exact h
  | unread => exact h
  | @visited node source hcanonical hfresh htext =>
    intro k hk
    rw [Graph.contains_mark, Bool.or_eq_true, decide_eq_true_eq] at hk
    rcases hk with hk | hk
    · exact h k hk
    · by_cases hbase : base.contains node
      · rw [Graph.contains_congr base hk] at hbase
        exact .inl hbase
      · exact .inr (hsame node k hk (hp node source hcanonical htext hbase))

theorem mem_visit {K : Set Path} (hloader : loader.Congruent)
    (hsame : ∀ p q, p.Same q → p ∈ K → q ∈ K)
    (hstep : ∀ k source name target node source', k ∈ K → ¬ base.contains k →
      loader.text k = .ok source → name ∈ (References.ofSource source).names →
      candidates.resolve? name = some target → loader.canonical target = .ok node →
      loader.text node = .ok source' → ¬ base.contains node → node ∈ K)
    {s : Progress} {p : Path} (hunderway : Underway candidates loader base s.graph [])
    (hp : ∀ node source, loader.canonical p = .ok node → loader.text node = .ok source →
      ¬ base.contains node → node ∈ K)
    (h : ∀ k, s.graph.contains k → base.contains k ∨ k ∈ K) :
    ∀ k, (visit candidates loader s p).graph.contains k → base.contains k ∨ k ∈ K := by
  refine hunderway.visit_invariant hloader
    (P := fun s _ => ∀ k, s.graph.contains k → base.contains k ∨ k ∈ K) ?_ ?_
  · intro s x pending hunderway h
    unfold followOne
    split
    next => exact h
    next target hname =>
      -- Only names of new sources are followed, so `hstep` is asked about these alone.
      rcases hunderway.fresh x List.mem_cons_self with ⟨hmarked, hbase⟩
      rcases hunderway.listed x.node hmarked hbase with ⟨source, done, htext, hnames, _⟩
      have hmem : x.name ∈ (References.ofSource source).names := by
        rw [hnames, namesAt_cons_of_same (Path.Same.refl x.node)]
        simp
      have hnode : x.node ∈ K := (h x.node hmarked).resolve_left hbase
      apply mem_of_opened hsame opened_openSource
      · intro node source' hcanonical htext'
        exact hstep x.node source x.name target node source' hnode hbase htext hmem hname
          hcanonical htext'
      · simpa using h
  · exact mem_of_opened hsame opened_openSource hp h

inductive Visits (candidates : CandidateSet) (loader : Loader) (roots : List Path) (g : Graph) :
    Path → Prop where
  | root {r : Path} (hr : r ∈ roots) : Visits candidates loader roots g r
  | target {k target : Path} {name : Name} {source : Text} (hk : g.contains k)
      (htext : loader.text k = .ok source) (hname : name ∈ (References.ofSource source).names)
      (htarget : candidates.resolve? name = some target) : Visits candidates loader roots g target

structure Complete (candidates : CandidateSet) (loader : Loader) (roots : List Path)
    (g : Graph) : Prop where
  underway : Underway candidates loader .empty g []
  covered : Covered candidates loader .empty g []
  settled : ∀ r ∈ roots, Settled loader g r
  least : ∀ K, Closed candidates loader roots K → ∀ k, g.contains k → k ∈ K

namespace Complete

theorem start : Complete candidates loader [] .empty where
  underway := .start _
  covered := .start _
  settled := by
    intro r hr
    cases hr
  least := by
    intro K hK k hk
    cases hk

theorem visit (hloader : loader.Congruent) {s : Progress}
    (h : Complete candidates loader roots s.graph) (p : Path) :
    Complete candidates loader (roots ++ [p]) (visit candidates loader s p).graph where
  underway := h.underway.visit hloader p
  covered := h.covered.visit hloader p
  settled := by
    intro r hr
    rcases List.mem_append.1 hr with hr | hr
    · apply (h.settled r hr).mono
      intro k
      apply contains_visit
    · rw [List.mem_singleton.1 hr]
      apply settled_visit
  least := by
    intro K hK k hk
    have hroots : Closed candidates loader roots K :=
      { hK with root := fun hr => hK.root (List.mem_append_left _ hr) }
    have := mem_visit (K := K) hloader (fun _ _ => hK.same)
      (fun _ _ _ _ _ _ hk _ htext hname htarget hcanonical htext' _ =>
        hK.target hk htext hname htarget hcanonical htext')
      h.underway (p := p)
      (fun _ _ hcanonical htext _ => hK.root (by simp) hcanonical htext)
      (fun k hk => .inr (h.least K hroots k hk)) k hk
    simpa using this

theorem addEntries (hloader : loader.Congruent) (entries : List Path) :
    Complete candidates loader (addEntries candidates loader .start entries).1
      (addEntries candidates loader .start entries).2.graph := by
  refine addEntries_invariant (P := fun roots s => Complete candidates loader roots s.graph)
    ?_ ?_ [] .start ?_ entries
  · intro roots s entry fault h
    exact h
  · intro roots s p h
    exact h.visit hloader p
  · exact start

variable (h : Complete candidates loader roots g)

include h

theorem exists_text {k : Path} (hk : g.contains k) : ∃ source, loader.text k = .ok source
    ∧ g.dependencies k = candidates.targets (References.ofSource source).names := by
  rcases h.underway.listed k hk (by simp) with ⟨source, done, htext, hnames, hdependencies⟩
  have hdone : (References.ofSource source).names = done := by
    rw [hnames]
    exact List.append_nil done
  refine ⟨source, htext, ?_⟩
  rw [hdone, hdependencies]

theorem settled_of_visits {p : Path} (hp : Visits candidates loader roots g p) :
    Settled loader g p := by
  cases hp with
  | root hr => exact h.settled p hr
  | @target k _ name source hk htext hname htarget =>
    cases h.covered k source hk (by simp) htext name hname with
    | inl hpending => cases hpending
    | inr hsettled => exact hsettled p htarget

theorem closed : Closed candidates loader roots {k | g.contains k} where
  same := by
    intro p q hsame hp
    rw [Set.mem_ofPred_eq, ← Graph.contains_congr g hsame]
    exact hp
  root := by
    intro r node source hr
    exact h.settled r hr node source
  target := by
    intro k target node name source source' hk htext hname htarget
    exact h.settled_of_visits (.target hk htext hname htarget) node source'

theorem visits_of_mem_dependencies {p q : Path} (hq : q ∈ g.dependencies p) :
    Visits candidates loader roots g q ∧ q ∈ candidates.files := by
  have hp := Graph.contains_of_mem_dependencies hq
  rcases h.exists_text hp with ⟨source, htext, hdependencies⟩
  rw [hdependencies] at hq
  rcases CandidateSet.exists_of_mem_targets hq with ⟨name, hname, htarget⟩
  exact ⟨.target hp htext hname htarget, CandidateSet.mem_of_resolve? htarget⟩

theorem exists_canonical (hloader : loader.Congruent) (hidempotent : loader.Idempotent) {k : Path}
    (hk : g.contains k) : ∃ node, loader.canonical k = .ok node ∧ node.Same k := by
  -- The paths that are canonical form a closed set, so all nodes are among them.
  apply h.least {k | ∃ node, loader.canonical k = .ok node ∧ node.Same k} ?_ k hk
  constructor
  · rintro p q hsame ⟨node, hcanonical, hnode⟩
    rcases hloader.canonical hsame hcanonical with ⟨node', hcanonical', hnode'⟩
    exact ⟨node', hcanonical', hnode'.trans (hnode.trans hsame)⟩
  · intro r node source _ hcanonical _
    exact hidempotent r node hcanonical
  · intro k target node name source source' _ _ _ _ hcanonical _
    exact hidempotent target node hcanonical

end Complete

def shownAs (loader : Loader) (entry : Path) : Path :=
  match loader.canonical entry with
  | .ok root => root
  | .error _ => (entry.absolute? loader.workingDirectory).getD entry

theorem addEntries_fst (s : Progress) (entries : List Path) :
    (addEntries candidates loader s entries).1 = entries.map (shownAs loader) := by
  induction entries generalizing s with
  | nil => rfl
  | cons entry entries ih =>
    simp only [addEntries, List.map_cons, ih]
    congr 1
    unfold addEntry shownAs
    cases loader.canonical entry <;> rfl

theorem isLeast_contains_and_dependencies (candidates : CandidateSet) (loader : Loader)
    (hloader : loader.Congruent) (entries : List Path) :
    let built := addEntries candidates loader .start entries
    IsLeast {K | Closed candidates loader built.1 K} {k | built.2.graph.contains k}
      ∧ ∀ k, built.2.graph.contains k → ∃ source, loader.text k = .ok source
        ∧ built.2.graph.dependencies k = candidates.targets (References.ofSource source).names := by
  intro built
  have h : Complete candidates loader built.1 built.2.graph := .addEntries hloader entries
  refine ⟨⟨h.closed, ?_⟩, ?_⟩
  · intro K hK k hk
    exact h.least K hK k hk
  · intro k hk
    exact h.exists_text hk

def mutualFiles : List MemoryFile :=
  [⟨.ofText "/p/A.vue".toList, some "<A /><B /><Broken />".toList⟩,
    ⟨.ofText "/p/B.vue".toList,
      some "import { A, Broken } from './all'\n<Broken /><Nowhere />".toList⟩,
    ⟨.ofText "/p/Broken.vue".toList, none⟩]

theorem isLeast_contains_and_dependencies_mutualFiles :
    let candidates := CandidateSet.ofList "vue".toList (mutualFiles.map (·.path))
    let loader := MemoryFile.loader mutualFiles []
    let built := addEntries candidates loader .start [.ofText "/p/A.vue".toList]
    loader.Congruent
      ∧ IsLeast {K | Closed candidates loader built.1 K} {k | built.2.graph.contains k}
      ∧ built.2.graph.dependencies (.ofText "/p/A.vue".toList) = mutualFiles.map (·.path) := by
  intro candidates loader built
  have hloader : loader.Congruent := MemoryFile.congruent_loader mutualFiles []
  have hgraph := isLeast_contains_and_dependencies candidates loader hloader
    [.ofText "/p/A.vue".toList]
  rcases hgraph with ⟨hleast, hdependencies⟩
  refine ⟨hloader, hleast, ?_⟩
  have hcanonical : loader.canonical (.ofText "/p/A.vue".toList)
      = .ok (.ofText "/p/A.vue".toList) := by decide +kernel
  have htext : loader.text (.ofText "/p/A.vue".toList)
      = .ok "<A /><B /><Broken />".toList := by decide +kernel
  have hmarked := hleast.1.root (by decide +kernel) hcanonical htext
  rcases hdependencies _ hmarked with ⟨source, htext', h⟩
  rw [htext] at htext'
  cases htext'
  rw [h]
  decide +kernel

end ComponentTree.Build
