import Mathlib.Data.List.Nodup
import ComponentTree.Proofs.Path.Order

/-!
This module contains the trees of files in which the entries of every directory can be told apart by
their names, so that what lies at the end of names is what is listed there.
-/

namespace ComponentTree.FileTree

@[elab_as_elim, induction_eliminator]
theorem inductionOn {motive : FileTree → Prop} (t : FileTree)
    (file : ∀ content, motive (.file content)) (link : ∀ target, motive (.link target))
    (directory : ∀ entries, (∀ e ∈ entries, motive e.2) → motive (.directory entries)) :
    motive t := by
  cases t with
  | file content => apply file
  | link target => apply link
  | directory entries =>
    apply directory
    intro e he
    have : sizeOf e.2 < 1 + sizeOf entries := by
      have := List.sizeOf_lt_of_mem he
      cases e
      simp at *
      omega
    apply inductionOn e.2 file link directory
termination_by t

theorem at?_append (t : FileTree) (names names' : List Bytes) :
    t.at? (names ++ names') = (t.at? names).bind (·.at? names') := by
  induction names generalizing t with
  | nil => rfl
  | cons name names ih =>
    rw [List.cons_append, at?, at?, Option.bind_assoc]
    congr 1
    funext t
    apply ih

def WellNamed (t : FileTree) : Prop :=
  ∀ names entries, t.at? names = some (.directory entries) →
    (entries.map (·.1)).Nodup ∧ ∀ name ∈ entries.map (·.1), Path.IsName name

theorem mem_of_child? {entries : List (Bytes × FileTree)} {name : Bytes} {t : FileTree}
    (h : (directory entries).child? name = some t) : (name, t) ∈ entries := by
  rw [child?, Option.map_eq_some_iff] at h
  rcases h with ⟨e, he, rfl⟩
  have hname := List.find?_some he
  rw [decide_eq_true_eq] at hname
  rw [← hname]
  apply List.mem_of_find?_eq_some he

theorem exists_of_at?_cons {t u : FileTree} {name : Bytes} {names : List Bytes}
    (h : t.at? (name :: names) = some u) :
    ∃ entries inner, t = .directory entries ∧ (name, inner) ∈ entries
      ∧ inner.at? names = some u := by
  rw [at?, Option.bind_eq_some_iff] at h
  rcases h with ⟨inner, hchild, hinner⟩
  cases t with
  | file _ => cases hchild
  | link _ => cases hchild
  | directory entries => exact ⟨entries, inner, rfl, mem_of_child? hchild, hinner⟩

theorem child?_eq_some_iff {entries : List (Bytes × FileTree)} {name : Bytes} {t : FileTree}
    (hentries : (entries.map (·.1)).Nodup) :
    (directory entries).child? name = some t ↔ (name, t) ∈ entries := by
  constructor
  · apply mem_of_child?
  · intro hmem
    have hsome : (entries.find? (·.1 = name)).isSome := by
      rw [List.find?_isSome]
      exact ⟨_, hmem, by simp⟩
    rcases Option.isSome_iff_exists.1 hsome with ⟨e, he⟩
    have hname := List.find?_some he
    rw [decide_eq_true_eq] at hname
    have heq := List.inj_on_of_nodup_map hentries (List.mem_of_find?_eq_some he) hmem hname
    rw [child?, FileTree.entries, he, heq]
    rfl

theorem isDirectory_of_at? {t : FileTree} {names : List Bytes} {entries : List (Bytes × FileTree)}
    (h : t.at? names = some (.directory entries)) : t.isDirectory = true := by
  cases names with
  | nil =>
    cases h
    rfl
  | cons name names =>
    rcases exists_of_at?_cons h with ⟨_, _, rfl, _⟩
    rfl

theorem wellNamed_of_not_isDirectory {t : FileTree} (h : t.isDirectory = false) :
    t.WellNamed := by
  intro names entries hat
  rw [isDirectory_of_at? hat] at h
  cases h

theorem forall_directories {P : List (Bytes × FileTree) → Prop} {entries : List (Bytes × FileTree)}
    (htop : P entries)
    (hbelow : ∀ e ∈ entries, ∀ names inner, e.2.at? names = some (.directory inner) → P inner) :
    ∀ names inner, (directory entries).at? names = some (.directory inner) → P inner := by
  intro names inner h
  cases names with
  | nil =>
    cases h
    exact htop
  | cons name names =>
    rcases exists_of_at?_cons h with ⟨_, t, hdirectory, hmem, hat⟩
    cases hdirectory
    exact hbelow _ hmem names inner hat

theorem wellNamed_directory {entries : List (Bytes × FileTree)}
    (hnodup : (entries.map (·.1)).Nodup) (hnames : ∀ name ∈ entries.map (·.1), Path.IsName name)
    (hentries : ∀ e ∈ entries, e.2.WellNamed) : (directory entries).WellNamed :=
  forall_directories ⟨hnodup, hnames⟩ hentries

namespace WellNamed

variable {t : FileTree} {entries : List (Bytes × FileTree)}

theorem child?_eq_some_iff (h : (directory entries).WellNamed) {name : Bytes} :
    (directory entries).child? name = some t ↔ (name, t) ∈ entries :=
  FileTree.child?_eq_some_iff (h [] entries rfl).1

theorem of_at? (h : t.WellNamed) {names : List Bytes} {u : FileTree}
    (hu : t.at? names = some u) : u.WellNamed := by
  intro names' entries hentries
  apply h (names ++ names') entries
  rw [at?_append, hu]
  exact hentries

theorem of_mem (h : (directory entries).WellNamed) {e : Bytes × FileTree} (he : e ∈ entries) :
    e.2.WellNamed := by
  have hat : (directory entries).at? [e.1] = some e.2 := by
    rw [at?, h.child?_eq_some_iff.2 he]
    rfl
  apply h.of_at? hat

end WellNamed

end ComponentTree.FileTree
