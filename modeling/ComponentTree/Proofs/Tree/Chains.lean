import Mathlib.Data.List.Nodup
import ComponentTree.Proofs.Graph.Dependencies
import ComponentTree.Proofs.Tree.Unfolds

/-!
This module contains what is printed for a root, stated on walks: the chains of files from the root
down to each printed file are the walks along dependencies that meet no file twice before their end
and are not too long, each of them once.
-/

namespace ComponentTree

namespace DepthLimit

variable {limit : DepthLimit}

theorem allows_zero : limit.allows 0 = true := by
  unfold allows
  cases limit.levels? <;> simp

theorem allows_of_le {depth depth' : Nat} (h : limit.allows depth' = true) (hle : depth ≤ depth') :
    limit.allows depth = true := by
  unfold allows at h ⊢
  cases hlevels : limit.levels? with
  | none => rfl
  | some levels =>
    simp only [hlevels, Option.all_some, decide_eq_true_eq] at h ⊢
    omega

end DepthLimit

namespace Tree

mutual

def chains : Tree → List (List Path)
  | .node path children => [path] :: (forestChains children).map (path :: ·)

def forestChains : List Tree → List (List Path)
  | [] => []
  | tree :: trees => tree.chains ++ forestChains trees

end

theorem forestChains_eq (trees : List Tree) : forestChains trees = trees.flatMap chains := by
  induction trees with
  | nil => rfl
  | cons tree trees ih => rw [forestChains, ih, List.flatMap_cons]

theorem chains_eq (tree : Tree) :
    tree.chains = [tree.path] :: (tree.children.flatMap chains).map (tree.path :: ·) := by
  cases tree with
  | node path children => rw [chains, forestChains_eq]; rfl

theorem head?_of_mem_chains {tree : Tree} {walk : List Path} (h : walk ∈ tree.chains) :
    walk.head? = some tree.path := by
  rw [chains_eq, List.mem_cons, List.mem_map] at h
  rcases h with rfl | ⟨rest, _, rfl⟩ <;> rfl

theorem head?_of_mem_map_chains {α : Type} {f : Path → α} {tree : Tree} {walk : List α}
    (h : walk ∈ tree.chains.map (·.map f)) : walk.head? = some (f tree.path) := by
  rcases List.mem_map.1 h with ⟨walk, hwalk, rfl⟩
  rw [List.head?_map, head?_of_mem_chains hwalk]
  rfl

end Tree

namespace Graph

variable {g : Graph} {limit : DepthLimit}

/--
A walk along dependencies from `root` that meets no file twice before its end, within the limit.
-/
structure PrintedWalk (g : Graph) (limit : DepthLimit) (root : Path) (walk : List Path) : Prop where
  root : walk.head? = some root
  steps : walk.IsChain fun p q => q ∈ g.dependencies p
  distinct : (walk.dropLast.map Path.components).Nodup
  shallow : limit.allows (walk.length - 1) = true

structure WalkBelow (g : Graph) (limit : DepthLimit) (ancestors : List Path) (depth : Nat)
    (p : Path) (walk : List Path) : Prop where
  head : walk.head? = some p
  steps : walk.IsChain fun p q => q ∈ g.dependencies p
  fresh : ∀ q ∈ walk.dropLast, ancestors.any (fun a => a.Same q) = false
  distinct : (walk.dropLast.map Path.components).Nodup
  shallow : limit.allows (depth + (walk.length - 1)) = true

theorem walkBelow_nil_iff {root : Path} {walk : List Path} :
    g.WalkBelow limit [] 0 root walk ↔ g.PrintedWalk limit root walk := by
  constructor
  · rintro ⟨hhead, hsteps, _, hdistinct, hshallow⟩
    rw [Nat.zero_add] at hshallow
    exact ⟨hhead, hsteps, hdistinct, hshallow⟩
  · rintro ⟨hhead, hsteps, hdistinct, hshallow⟩
    refine ⟨hhead, hsteps, ?_, hdistinct, ?_⟩
    · intro q _
      rfl
    · rw [Nat.zero_add]
      exact hshallow

section Step

variable {ancestors : List Path} {depth : Nat} {p q r : Path} {rest : List Path}

theorem walkBelow_singleton_iff (hdepth : limit.allows depth = true) :
    g.WalkBelow limit ancestors depth p [q] ↔ q = p := by
  constructor
  · intro h
    simpa using h.head
  · rintro rfl
    exact ⟨rfl, .singleton _, by simp, by simp, hdepth⟩

theorem not_walkBelow_of_cut
    (hcut : ancestors.any (fun a => a.Same p) = true ∨ limit.allows (depth + 1) = false) :
    ¬ g.WalkBelow limit ancestors depth p (q :: r :: rest) := by
  intro h
  cases h.head
  rcases hcut with hmet | hdeep
  · rw [h.fresh p (by simp)] at hmet
    contradiction
  · rw [DepthLimit.allows_of_le h.shallow (by simp)] at hdeep
    contradiction

theorem walkBelow_cons_iff (hfresh : ancestors.any (fun a => a.Same p) = false) :
    g.WalkBelow limit ancestors depth p (q :: r :: rest)
      ↔ q = p ∧ r ∈ g.dependencies p
        ∧ g.WalkBelow limit (p :: ancestors) (depth + 1) r (r :: rest) := by
  have hdepth : depth + 1 + ((r :: rest).length - 1) = depth + ((q :: r :: rest).length - 1) := by
    simp only [List.length_cons]
    omega
  constructor
  · rintro ⟨hhead, hsteps, hancestors, hdistinct, hshallow⟩
    cases hhead
    rw [List.isChain_cons_cons] at hsteps
    rw [List.dropLast_cons_cons, List.map_cons, List.nodup_cons] at hdistinct
    refine ⟨rfl, hsteps.1, rfl, hsteps.2, ?_, hdistinct.2, hdepth ▸ hshallow⟩
    intro x hx
    rw [List.any_cons, hancestors x (by simp [hx]), Bool.or_false, decide_eq_false_iff_not]
    intro hsame
    apply hdistinct.1
    rw [hsame]
    exact List.mem_map_of_mem hx
  · rintro ⟨rfl, hr, hhead, hsteps, hancestors, hdistinct, hshallow⟩
    have hnew : ∀ x ∈ (r :: rest).dropLast,
        ¬ q.Same x ∧ ancestors.any (fun a => a.Same x) = false := by
      intro x hx
      have := hancestors x hx
      rw [List.any_cons, Bool.or_eq_false_iff, decide_eq_false_iff_not] at this
      exact this
    refine ⟨rfl, List.isChain_cons_cons.2 ⟨hr, hsteps⟩, ?_, ?_, hdepth ▸ hshallow⟩
    · intro x hx
      rw [List.dropLast_cons_cons, List.mem_cons] at hx
      rcases hx with rfl | hx
      · exact hfresh
      · exact (hnew x hx).2
    · rw [List.dropLast_cons_cons, List.map_cons, List.nodup_cons]
      refine ⟨?_, hdistinct⟩
      intro hmem
      rcases List.mem_map.1 hmem with ⟨x, hx, hsame⟩
      exact (hnew x hx).1 hsame.symm

end Step

theorem chains_treeBelow_of_cut {ancestors : List Path} {depth : Nat} {p : Path}
    (h : ancestors.any (fun a => a.Same p) = true ∨ limit.allows (depth + 1) = false) :
    (g.treeBelow limit ancestors depth p).chains = [[p]] := by
  rw [(g.unfolds_treeBelow limit).cut h]
  rfl

theorem chains_treeBelow_of_not_cut {ancestors : List Path} {depth : Nat} {p : Path}
    (h : ¬ (ancestors.any (fun a => a.Same p) = true ∨ limit.allows (depth + 1) = false)) :
    (g.treeBelow limit ancestors depth p).chains
      = [p] :: ((g.dependencies p).flatMap fun q =>
          (g.treeBelow limit (p :: ancestors) (depth + 1) q).chains).map (p :: ·) := by
  rw [(g.unfolds_treeBelow limit).expand h, Tree.chains, Tree.forestChains_eq, List.flatMap_map]

theorem mem_chains_treeBelow_iff {ancestors : List Path} {depth : Nat} {p : Path}
    {walk : List Path} (hdepth : limit.allows depth = true) :
    walk ∈ (g.treeBelow limit ancestors depth p).chains
      ↔ g.WalkBelow limit ancestors depth p walk := by
  induction ancestors, depth, p using treeBelow.induct g limit generalizing walk with
  | case1 ancestors depth p hcut =>
    rw [chains_treeBelow_of_cut hcut, List.mem_singleton]
    rcases walk with _ | ⟨q, _ | ⟨r, rest⟩⟩
    · exact ⟨by simp, fun h => by simpa using h.head⟩
    · rw [walkBelow_singleton_iff hdepth, List.cons.injEq, eq_self, and_true]
    · constructor
      · intro h
        cases h
      · intro h
        exact absurd h (not_walkBelow_of_cut hcut)
  | case2 ancestors depth p hcut ih =>
    rw [chains_treeBelow_of_not_cut hcut, List.mem_cons, List.mem_map]
    rw [not_or, Bool.not_eq_true, Bool.not_eq_false] at hcut
    rcases walk with _ | ⟨q, _ | ⟨r, rest⟩⟩
    · exact ⟨by simp, fun h => by simpa using h.head⟩
    · rw [walkBelow_singleton_iff hdepth]
      constructor
      · rintro (h | ⟨rest, hrest, h⟩)
        · exact List.head_eq_of_cons_eq h
        · exact (List.head_eq_of_cons_eq h).symm
      · rintro rfl
        exact .inl rfl
    · rw [walkBelow_cons_iff hcut.1]
      constructor
      · rintro (h | ⟨walk, hwalk, h⟩)
        · cases h
        · cases h
          rcases List.mem_flatMap.1 hwalk with ⟨x, hx, hwalk⟩
          have hhead := Tree.head?_of_mem_chains hwalk
          rw [path_treeBelow] at hhead
          cases hhead
          exact ⟨rfl, hx, (ih r hx hcut.2).1 hwalk⟩
      · rintro ⟨rfl, hr, h⟩
        refine .inr ⟨r :: rest, ?_, rfl⟩
        apply List.mem_flatMap.2
        exact ⟨r, hr, (ih r hr hcut.2).2 h⟩

theorem nodup_chains_treeBelow (ancestors : List Path) (depth : Nat) (p : Path) :
    ((g.treeBelow limit ancestors depth p).chains.map (·.map Path.components)).Nodup := by
  induction ancestors, depth, p using treeBelow.induct g limit with
  | case1 ancestors depth p hcut =>
    rw [chains_treeBelow_of_cut hcut]
    apply List.nodup_singleton
  | case2 ancestors depth p hcut ih =>
    -- Chains through different dependencies differ where they leave `p`.
    have hbelow : (((g.dependencies p).flatMap fun q =>
        (g.treeBelow limit (p :: ancestors) (depth + 1) q).chains).map
          (·.map Path.components)).Nodup := by
      rw [List.map_flatMap, List.nodup_flatMap]
      constructor
      · exact ih
      · have hnodup := g.nodup_dependencies p
        rw [List.Nodup, List.pairwise_map] at hnodup
        apply hnodup.imp
        intro q r hne walk hq hr
        have hq := Tree.head?_of_mem_map_chains hq
        have hr := Tree.head?_of_mem_map_chains hr
        rw [path_treeBelow] at hq hr
        rw [hq] at hr
        exact hne (Option.some.inj hr)
    rw [chains_treeBelow_of_not_cut hcut, List.map_cons, List.map_map, List.nodup_cons]
    constructor
    · intro hmem
      rcases List.mem_map.1 hmem with ⟨walk, hwalk, heq⟩
      rcases List.mem_flatMap.1 hwalk with ⟨q, _, hwalk⟩
      have hhead := Tree.head?_of_mem_chains hwalk
      cases walk with
      | nil => cases hhead
      | cons x rest => simp at heq
    · have hcons : (·.map Path.components) ∘ (p :: ·)
          = (p.components :: ·) ∘ (·.map Path.components) := rfl
      rw [hcons, ← List.map_map]
      exact hbelow.map List.cons_injective

theorem singleton_mem_chains_treeBelow (g : Graph) (limit : DepthLimit) (ancestors : List Path)
    (depth : Nat) (p : Path) :
    [p] ∈ (g.treeBelow limit ancestors depth p).chains := by
  rw [Tree.chains_eq, path_treeBelow]
  exact List.mem_cons_self

theorem map_dependencies_sublist_chains_treeBelow {ancestors : List Path} {depth : Nat} {p : Path}
    {walk : List Path} {x q : Path}
    (h : walk ++ [x, q] ∈ (g.treeBelow limit ancestors depth p).chains) :
    ((g.dependencies x).map fun r => walk ++ [x, r]).Sublist
      (g.treeBelow limit ancestors depth p).chains := by
  induction ancestors, depth, p using treeBelow.induct g limit generalizing walk with
  | case1 ancestors depth p hcut =>
    rw [chains_treeBelow_of_cut hcut, List.mem_singleton] at h
    have := congrArg List.length h
    simp at this
  | case2 ancestors depth p hcut ih =>
    rw [chains_treeBelow_of_not_cut hcut] at h ⊢
    apply List.Sublist.cons
    cases walk with
    | nil =>
      have hx : x = p := by
        rw [List.mem_cons, List.mem_map] at h
        rcases h with h | ⟨rest, _, h⟩ <;> cases h
        rfl
      rw [hx]
      have := map_singleton_sublist_flatMap fun q (_ : q ∈ g.dependencies p) =>
        singleton_mem_chains_treeBelow g limit (p :: ancestors) (depth + 1) q
      have := this.map (p :: ·)
      rw [List.map_map] at this
      exact this
    | cons y walk =>
      rw [List.mem_cons, List.mem_map] at h
      rcases h with h | ⟨rest, hrest, h⟩
      · simp at h
      · cases h
        rcases List.mem_flatMap.1 hrest with ⟨r, hr, hrest⟩
        have hall := sublist_flatMap_of_mem
          (f := fun q => (g.treeBelow limit (p :: ancestors) (depth + 1) q).chains) hr
        have := ((ih r hr hrest).trans hall).map (p :: ·)
        rw [List.map_map] at this
        exact this

theorem mem_chains_tree_iff_printedWalk (g : Graph) (limit : DepthLimit) (root : Path) :
    let chains := (g.tree limit root).chains
    (∀ walk, walk ∈ chains ↔ g.PrintedWalk limit root walk)
      ∧ (chains.map (·.map Path.components)).Nodup
      ∧ ∀ walk p q, walk ++ [p, q] ∈ chains →
        ((g.dependencies p).map fun r => walk ++ [p, r]).Sublist chains := by
  intro chains
  refine ⟨?_, ?_, ?_⟩
  · intro walk
    rw [← walkBelow_nil_iff]
    exact mem_chains_treeBelow_iff DepthLimit.allows_zero
  · apply nodup_chains_treeBelow
  · intro walk p q h
    exact map_dependencies_sublist_chains_treeBelow h

end Graph

end ComponentTree
