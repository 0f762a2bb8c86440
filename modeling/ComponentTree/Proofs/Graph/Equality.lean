import Mathlib.Data.List.Nodup
import Mathlib.Data.List.Perm.Subperm
import ComponentTree.Proofs.Graph.Dependencies

/-!
This module contains when two graphs are the same: they have marked the same paths, and each path
has the same dependencies in both, wherever the nodes stand and however paths are spelled.
-/

namespace ComponentTree.Graph

variable {g h : Graph} {p : Path}

theorem exists_node?_of_contains (hp : g.contains p) : ∃ node, g.node? p = some node :=
  Option.isSome_iff_exists.1 hp

theorem dependencies_of_node? {node : Node} (hnode : g.node? p = some node) :
    g.dependencies p = node.targets := by
  unfold dependencies
  rw [hnode]

theorem node?_path_of_mem {node : Node} (hnode : node ∈ g.nodes) :
    g.node? node.path = some node := by
  have hp : g.contains node.path := contains_iff.2 (List.mem_map_of_mem hnode)
  rcases exists_node?_of_contains hp with ⟨other, hother⟩
  have hmem : other ∈ g.nodes := List.mem_of_find?_eq_some hother
  rw [hother, List.inj_on_of_nodup_map g.nodup hmem hnode (same_of_node? g hother)]

theorem components_subset_iff :
    g.nodes.map (·.path.components) ⊆ h.nodes.map (·.path.components)
      ↔ ∀ p, g.contains p → h.contains p := by
  constructor
  · intro hsubset p hp
    exact contains_iff.2 (hsubset (contains_iff.1 hp))
  · intro hcontains components hmem
    rcases List.mem_map.1 hmem with ⟨node, hnode, rfl⟩
    exact contains_iff.1 (hcontains node.path (contains_iff.2 (List.mem_map_of_mem hnode)))

theorem contains_of_size_le (hle : ∀ p, g.contains p → h.contains p) (hsize : h.size ≤ g.size) :
    h.contains p → g.contains p := by
  have hperm : (g.nodes.map (·.path.components)).Perm (h.nodes.map (·.path.components)) := by
    apply (List.subperm_of_subset g.nodup (components_subset_iff.2 hle)).perm_of_length_le
    rw [List.length_map, List.length_map]
    exact hsize
  exact components_subset_iff.1 hperm.symm.subset p

theorem size_le_of_contains (hle : ∀ p, g.contains p → h.contains p) : g.size ≤ h.size := by
  have := (List.subperm_of_subset g.nodup (components_subset_iff.2 hle)).length_le
  rwa [List.length_map, List.length_map] at this

theorem sameAs_eq_true_iff : g.sameAs h = true ↔ g.size = h.size ∧
    ∀ node ∈ g.nodes, ∃ other, h.node? node.path = some other ∧
      node.targets.map Path.components = other.targets.map Path.components := by
  rw [sameAs, Bool.and_eq_true, decide_eq_true_eq, List.all_eq_true]
  apply and_congr_right'
  apply forall₂_congr
  intro node _
  cases h.node? node.path with
  | none => simp
  | some other => simp

theorem sameAs_iff : g.sameAs h = true ↔
    ∀ p, g.contains p = h.contains p ∧
      (g.dependencies p).map Path.components = (h.dependencies p).map Path.components := by
  rw [sameAs_eq_true_iff]
  constructor
  · rintro ⟨hsize, hnodes⟩
    have hfound {p : Path} {node : Node} (hnode : g.node? p = some node) :
        ∃ other, h.node? p = some other ∧
          node.targets.map Path.components = other.targets.map Path.components := by
      have := hnodes node (List.mem_of_find?_eq_some hnode)
      rwa [node?_congr h (same_of_node? g hnode)] at this
    have hle (p : Path) (hp : g.contains p) : h.contains p := by
      rcases exists_node?_of_contains hp with ⟨node, hnode⟩
      rcases hfound hnode with ⟨other, hother, -⟩
      exact Option.isSome_iff_exists.2 ⟨other, hother⟩
    -- Only the nodes of `g` were looked at: that `h` has no others follows from the sizes.
    have hge (p : Path) : h.contains p → g.contains p :=
      contains_of_size_le hle (Nat.le_of_eq hsize.symm)
    intro p
    refine ⟨Bool.eq_iff_iff.2 ⟨hle p, hge p⟩, ?_⟩
    by_cases hp : g.contains p
    · rcases exists_node?_of_contains hp with ⟨node, hnode⟩
      rcases hfound hnode with ⟨other, hother, htargets⟩
      rw [dependencies_of_node? hnode, dependencies_of_node? hother, htargets]
    · rw [dependencies_eq_nil g hp, dependencies_eq_nil h (mt (hge p) hp)]
  · intro hall
    have hle (p : Path) (hp : g.contains p) : h.contains p := (hall p).1 ▸ hp
    have hge (p : Path) (hp : h.contains p) : g.contains p := (hall p).1 ▸ hp
    refine ⟨Nat.le_antisymm (size_le_of_contains hle) (size_le_of_contains hge), ?_⟩
    intro node hnode
    have hself := node?_path_of_mem hnode
    have hcontains : h.contains node.path := by
      apply hle
      exact Option.isSome_iff_exists.2 ⟨node, hself⟩
    rcases exists_node?_of_contains hcontains with ⟨other, hother⟩
    refine ⟨other, hother, ?_⟩
    rw [← dependencies_of_node? hself, ← dependencies_of_node? hother]
    exact (hall node.path).2

theorem sameAs_refl (g : Graph) : g.sameAs g = true :=
  sameAs_iff.2 fun _ => ⟨rfl, rfl⟩

end ComponentTree.Graph
