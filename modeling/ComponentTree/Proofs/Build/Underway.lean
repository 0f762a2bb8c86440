import ComponentTree.Proofs.Build.Step
import ComponentTree.Proofs.Graph.Dependencies
import ComponentTree.Proofs.Loader

/-!
This module contains what holds of the graph while names are followed, seen from the graph `base`
that a visit started with. The nodes of `base` stay as they are. Every other node has as its
dependencies the files of those of its names that have been followed, and where these lead is marked
if it can be read.
-/

namespace ComponentTree

def CandidateSet.targets (candidates : CandidateSet) (names : List Name) : List Path :=
  (names.filterMap candidates.resolve?).eraseDupsBy fun p q => p.Same q

namespace CandidateSet

variable {candidates : CandidateSet} {name : Name}

theorem targets_append_of_resolve?_eq_none (names : List Name)
    (h : candidates.resolve? name = none) :
    candidates.targets (names ++ [name]) = candidates.targets names := by
  unfold targets
  simp [List.filterMap_append, h]

theorem targets_append_of_resolve?_eq_some (names : List Name) {target : Path}
    (h : candidates.resolve? name = some target) :
    candidates.targets (names ++ [name])
      = if (candidates.targets names).any (target.Same ·) then candidates.targets names
        else candidates.targets names ++ [target] := by
  unfold targets
  rw [List.filterMap_append, List.filterMap_cons_some h]
  apply eraseDupsBy_append_singleton

theorem exists_of_mem_targets {names : List Name} {target : Path}
    (h : target ∈ candidates.targets names) :
    ∃ name ∈ names, candidates.resolve? name = some target := by
  have := mem_of_mem_eraseDupsBy h
  exact List.mem_filterMap.1 this

end CandidateSet

namespace Build

variable {candidates : CandidateSet} {loader : Loader} {base g : Graph}

def namesAt (k : Path) (pending : List Pending) : List Name :=
  (pending.filter fun x => x.node.Same k).map (·.name)

theorem namesAt_append (k : Path) (xs ys : List Pending) :
    namesAt k (xs ++ ys) = namesAt k xs ++ namesAt k ys := by
  simp [namesAt]

theorem namesAt_cons_of_same {k : Path} {x : Pending} (h : x.node.Same k) (pending : List Pending) :
    namesAt k (x :: pending) = x.name :: namesAt k pending := by
  simp [namesAt, h]

theorem namesAt_cons_of_not_same {k : Path} {x : Pending} (h : ¬ x.node.Same k)
    (pending : List Pending) : namesAt k (x :: pending) = namesAt k pending := by
  simp [namesAt, h]

theorem namesAt_map_of_same {k node : Path} (h : node.Same k) (names : List Name) :
    namesAt k (names.map (Pending.mk node)) = names := by
  induction names with
  | nil => rfl
  | cons name names ih =>
    rw [List.map_cons, namesAt_cons_of_same h, ih]

theorem namesAt_map_of_not_same {k node : Path} (h : ¬ node.Same k) (names : List Name) :
    namesAt k (names.map (Pending.mk node)) = [] := by
  induction names with
  | nil => rfl
  | cons name names ih =>
    rw [List.map_cons, namesAt_cons_of_not_same h, ih]

theorem namesAt_eq_nil {k : Path} {pending : List Pending} (h : ∀ x ∈ pending, ¬ x.node.Same k) :
    namesAt k pending = [] := by
  simpa [namesAt] using h

structure Underway (candidates : CandidateSet) (loader : Loader) (base g : Graph)
    (pending : List Pending) : Prop where
  kept : ∀ k, base.contains k → g.contains k ∧ g.dependencies k = base.dependencies k
  fresh : ∀ x ∈ pending, g.contains x.node ∧ ¬ base.contains x.node
  listed : ∀ k, g.contains k → ¬ base.contains k → ∃ source done, loader.text k = .ok source
    ∧ (References.ofSource source).names = done ++ namesAt k pending
    ∧ g.dependencies k = candidates.targets done

namespace Underway

theorem start (base : Graph) : Underway candidates loader base base [] where
  kept := fun k h => ⟨h, rfl⟩
  fresh := by
    intro x hx
    cases hx
  listed := by
    intro k hk hbase
    contradiction

theorem skip {x : Pending} {pending : List Pending}
    (h : Underway candidates loader base g (x :: pending))
    (hname : candidates.resolve? x.name = none) : Underway candidates loader base g pending where
  kept := h.kept
  fresh := by
    intro y hy
    exact h.fresh y (List.mem_cons_of_mem _ hy)
  listed := by
    intro k hk hbase
    rcases h.listed k hk hbase with ⟨source, done, htext, hnames, hdependencies⟩
    by_cases hx : x.node.Same k
    · refine ⟨source, done ++ [x.name], htext, ?_, ?_⟩
      · rw [hnames, namesAt_cons_of_same hx, List.append_assoc, List.singleton_append]
      · rw [hdependencies, CandidateSet.targets_append_of_resolve?_eq_none done hname]
    · refine ⟨source, done, htext, ?_, hdependencies⟩
      rw [hnames, namesAt_cons_of_not_same hx]

theorem link {x : Pending} {pending : List Pending} {target : Path}
    (h : Underway candidates loader base g (x :: pending))
    (hname : candidates.resolve? x.name = some target) :
    Underway candidates loader base (g.link x.node target) pending where
  kept := by
    intro k hk
    rcases h.kept k hk with ⟨hcontains, hdependencies⟩
    -- A node of `base` is not linked from: the names that are followed belong to new nodes.
    have hx : ¬ k.Same x.node := by
      intro hsame
      apply (h.fresh x List.mem_cons_self).2
      rw [← Graph.contains_congr base hsame]
      exact hk
    rw [Graph.contains_link, Graph.dependencies_link_of_not_same g target hx]
    exact ⟨hcontains, hdependencies⟩
  fresh := by
    intro y hy
    rw [Graph.contains_link]
    exact h.fresh y (List.mem_cons_of_mem _ hy)
  listed := by
    intro k hk hbase
    rw [Graph.contains_link] at hk
    rcases h.listed k hk hbase with ⟨source, done, htext, hnames, hdependencies⟩
    by_cases hx : x.node.Same k
    · refine ⟨source, done ++ [x.name], htext, ?_, ?_⟩
      · rw [hnames, namesAt_cons_of_same hx, List.append_assoc, List.singleton_append]
      · have hnode := (h.fresh x List.mem_cons_self).1
        rw [← Graph.dependencies_congr g hx] at hdependencies
        rw [← Graph.dependencies_congr _ hx, Graph.dependencies_link_self g target hnode,
          hdependencies, CandidateSet.targets_append_of_resolve?_eq_some done hname]
    · refine ⟨source, done, htext, ?_, ?_⟩
      · rw [hnames, namesAt_cons_of_not_same hx]
      · rw [Graph.dependencies_link_of_not_same g target (fun hk => hx hk.symm), hdependencies]

theorem mark (hloader : loader.Congruent) {pending : List Pending} {node : Path} {source : Text}
    (h : Underway candidates loader base g pending) (hfresh : ¬ g.contains node)
    (htext : loader.text node = .ok source) :
    Underway candidates loader base (g.mark node)
      ((References.ofSource source).names.map (Pending.mk node) ++ pending) where
  kept := by
    intro k hk
    rcases h.kept k hk with ⟨hcontains, hdependencies⟩
    rw [Graph.contains_mark, Graph.dependencies_mark, hcontains]
    exact ⟨rfl, hdependencies⟩
  fresh := by
    intro x hx
    rw [Graph.contains_mark]
    cases List.mem_append.1 hx with
    | inl hnew =>
      rcases List.mem_map.1 hnew with ⟨name, _, rfl⟩
      refine ⟨by simp, ?_⟩
      intro hbase
      exact hfresh (h.kept node hbase).1
    | inr hold =>
      rcases h.fresh x hold with ⟨hcontains, hbase⟩
      rw [hcontains]
      exact ⟨rfl, hbase⟩
  listed := by
    intro k hk hbase
    rw [Graph.dependencies_mark, namesAt_append]
    by_cases hsame : node.Same k
    -- No name of the new node is pending, since the sources of pending names are nodes already.
    · have hk : ¬ g.contains k := by
        rw [← Graph.contains_congr g hsame]
        exact hfresh
      have hpending : namesAt k pending = [] := by
        apply namesAt_eq_nil
        intro x hx hxk
        apply hk
        rw [← Graph.contains_congr g hxk]
        exact (h.fresh x hx).1
      refine ⟨source, [], hloader.text hsame htext, ?_, ?_⟩
      · rw [namesAt_map_of_same hsame, hpending, List.append_nil, List.nil_append]
      · rw [Graph.dependencies_eq_nil g hk]
        rfl
    · rw [Graph.contains_mark, decide_eq_false hsame, Bool.or_false] at hk
      rw [namesAt_map_of_not_same hsame, List.nil_append]
      exact h.listed k hk hbase

theorem opened (hloader : loader.Congruent) {s : Progress} {pending : List Pending} {p : Path}
    {result : Progress × List Pending} (h : Underway candidates loader base s.graph pending)
    (hopened : Opened loader s p result) :
    Underway candidates loader base result.1.graph (result.2 ++ pending) := by
  cases hopened with
  | missed => exact h
  | revisited => exact h
  | unread => exact h
  | visited hcanonical hfresh htext => exact h.mark hloader hfresh htext

theorem followOne (hloader : loader.Congruent) {s : Progress} {x : Pending} {pending : List Pending}
    (h : Underway candidates loader base s.graph (x :: pending)) :
    Underway candidates loader base (followOne candidates loader s x).1.graph
      ((followOne candidates loader s x).2 ++ pending) := by
  unfold Build.followOne
  split
  next hname => exact h.skip hname
  next target hname =>
    refine opened hloader ?_ opened_openSource
    rw [Progress.graph_link]
    exact h.link hname

theorem openSource (hloader : loader.Congruent) {s : Progress}
    (h : Underway candidates loader base s.graph []) (p : Path) :
    Underway candidates loader base (openSource loader s p).1.graph (openSource loader s p).2 := by
  have := h.opened hloader (p := p) opened_openSource
  rw [List.append_nil] at this
  exact this

theorem visit (hloader : loader.Congruent) {s : Progress}
    (h : Underway candidates loader base s.graph []) (p : Path) :
    Underway candidates loader base (visit candidates loader s p).graph [] := by
  apply follow_invariant (P := fun s pending => Underway candidates loader base s.graph pending)
  · intro s x pending
    apply followOne hloader
  · exact h.openSource hloader p

theorem visit_invariant (hloader : loader.Congruent) {P : Progress → List Pending → Prop}
    (hstep : ∀ s x pending, Underway candidates loader base s.graph (x :: pending) →
      P s (x :: pending) → P (Build.followOne candidates loader s x).1
        ((Build.followOne candidates loader s x).2 ++ pending))
    {s : Progress} {p : Path} (h : Underway candidates loader base s.graph [])
    (hopened : P (Build.openSource loader s p).1 (Build.openSource loader s p).2) :
    P (Build.visit candidates loader s p) [] := by
  have hboth : Underway candidates loader base (Build.visit candidates loader s p).graph []
      ∧ P (Build.visit candidates loader s p) [] := by
    apply follow_invariant
      (P := fun s pending => Underway candidates loader base s.graph pending ∧ P s pending)
    · rintro s x pending ⟨h, hP⟩
      constructor
      · exact h.followOne hloader
      · exact hstep s x pending h hP
    · exact ⟨h.openSource hloader p, hopened⟩
  exact hboth.2

end Underway

end Build

end ComponentTree
