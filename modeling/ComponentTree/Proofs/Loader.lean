import ComponentTree.CandidateSet
import ComponentTree.Loader

/-!
This module contains what may be expected of a loader, whatever files it stands for: that it does
not tell paths apart that are the same, and that canonical paths are left as they are. Files in
memory meet the first expectation, and the second unless an alias leads to another one.
-/

namespace ComponentTree

namespace Loader

structure Congruent (loader : Loader) : Prop where
  canonical {p q node : Path} : p.Same q → loader.canonical p = .ok node →
    ∃ node', loader.canonical q = .ok node' ∧ node'.Same node
  text {p q : Path} {source : Text} : p.Same q → loader.text p = .ok source →
    loader.text q = .ok source

def Idempotent (loader : Loader) : Prop :=
  ∀ p node, loader.canonical p = .ok node →
    ∃ node', loader.canonical node = .ok node' ∧ node'.Same node

def Keeps (loader : Loader) (candidates : CandidateSet) : Prop :=
  ∀ file ∈ candidates.files, ∀ node, loader.canonical file = .ok node → node.Same file

end Loader

namespace MemoryFile

theorem find?_congr (files : List MemoryFile) {p q : Path} (h : p.Same q) :
    find? files p = find? files q := by
  unfold find?
  simp only [h.iff_right]

theorem aliased_same (aliases : List (Path × Path)) {p q : Path} (h : p.Same q) :
    (aliased aliases q).Same (aliased aliases p) := by
  unfold aliased
  simp only [h.iff_right]
  split
  · rfl
  · exact h.symm

theorem aliased_aliased {aliases : List (Path × Path)}
    (h : ∀ entry ∈ aliases, aliased aliases entry.2 = entry.2) (p : Path) :
    aliased aliases (aliased aliases p) = aliased aliases p := by
  cases hfind : aliases.reverse.find? fun entry => entry.1.Same p with
  | none =>
    have hp : aliased aliases p = p := by
      unfold aliased
      rw [hfind]
    rw [hp, hp]
  | some entry =>
    have hp : aliased aliases p = entry.2 := by
      unfold aliased
      rw [hfind]
    rw [hp]
    apply h
    have := List.mem_of_find?_eq_some hfind
    exact List.mem_reverse.1 this

theorem canonical_loader_eq_ok_iff {files : List MemoryFile} {aliases : List (Path × Path)}
    {p node : Path} : (loader files aliases).canonical p = .ok node
      ↔ aliased aliases p = node ∧ (find? files node).isSome := by
  simp only [loader]
  split
  · simp only [Except.ok.injEq]
    constructor
    · rintro rfl
      exact ⟨rfl, by assumption⟩
    · intro h
      exact h.1
  · simp only [reduceCtorEq, false_iff, not_and]
    rintro rfl
    assumption

theorem congruent_loader (files : List MemoryFile) (aliases : List (Path × Path)) :
    (loader files aliases).Congruent where
  canonical := by
    intro p q node h hp
    rw [canonical_loader_eq_ok_iff] at hp
    rcases hp with ⟨rfl, hfind⟩
    have hsame := aliased_same aliases h
    refine ⟨aliased aliases q, ?_, hsame⟩
    rw [canonical_loader_eq_ok_iff]
    refine ⟨rfl, ?_⟩
    rw [find?_congr files hsame]
    exact hfind
  text := by
    intro p q source h hp
    simp only [loader] at hp ⊢
    rw [← find?_congr files h]
    exact hp

theorem idempotent_loader (files : List MemoryFile) {aliases : List (Path × Path)}
    (h : ∀ entry ∈ aliases, aliased aliases entry.2 = entry.2) :
    (loader files aliases).Idempotent := by
  intro p node hp
  rw [canonical_loader_eq_ok_iff] at hp
  rcases hp with ⟨rfl, hfind⟩
  refine ⟨aliased aliases p, ?_, Path.Same.refl _⟩
  rw [canonical_loader_eq_ok_iff]
  exact ⟨aliased_aliased h p, hfind⟩

theorem keeps_loader (files : List MemoryFile) {aliases : List (Path × Path)}
    {candidates : CandidateSet} (h : ∀ file ∈ candidates.files, aliased aliases file = file) :
    (loader files aliases).Keeps candidates := by
  intro file hfile node hcanonical
  rw [canonical_loader_eq_ok_iff, h file hfile] at hcanonical
  rw [hcanonical.1]

end MemoryFile

end ComponentTree
