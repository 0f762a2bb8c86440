import ComponentTree.FileTree.Disk
import ComponentTree.Proofs.FileTree.WellNamed

/-!
This module contains the trees of files that differ only in the order in which directories list
their entries. Every path leads to the same location in all of them.
-/

namespace ComponentTree

namespace FileTree

inductive Reordered : FileTree → FileTree → Prop
  | refl (t : FileTree) : Reordered t t
  | trans {t u v : FileTree} (h : Reordered t u) (h' : Reordered u v) : Reordered t v
  | entries {entries entries' : List (Bytes × FileTree)} (h : entries.Perm entries') :
    Reordered (.directory entries) (.directory entries')
  | entry (before after : List (Bytes × FileTree)) {name : Bytes} {t u : FileTree}
    (h : Reordered t u) :
    Reordered (.directory (before ++ (name, t) :: after))
      (.directory (before ++ (name, u) :: after))

namespace Reordered

variable {t u : FileTree}

theorem symm (h : t.Reordered u) : u.Reordered t := by
  induction h with
  | refl => apply refl
  | trans _ _ ih ih' => exact ih'.trans ih
  | entries h => exact .entries h.symm
  | entry before after _ ih => exact .entry before after ih

theorem eq_of_not_isDirectory (h : t.Reordered u) (ht : t.isDirectory = false) : t = u := by
  induction h with
  | refl => rfl
  | trans _ _ ih ih' =>
    have heq := ih ht
    rw [heq] at ht ⊢
    exact ih' ht
  | entries => cases ht
  | entry => cases ht

theorem isDirectory_eq (h : t.Reordered u) : t.isDirectory = u.isDirectory := by
  induction h with
  | refl => rfl
  | trans _ _ ih ih' => rw [ih, ih']
  | entries => rfl
  | entry => rfl

theorem perm_names (h : t.Reordered u) :
    (t.entries.map (·.1)).Perm (u.entries.map (·.1)) := by
  induction h with
  | refl => rfl
  | trans _ _ ih ih' => exact ih.trans ih'
  | entries h => exact h.map _
  | entry => simp [FileTree.entries]

def Everywhere (t u : FileTree) : Prop :=
  ∀ names, Option.Rel Reordered (t.at? names) (u.at? names)

theorem rel_refl (t? : Option FileTree) : Option.Rel Reordered t? t? := by
  cases t? with
  | none => apply Option.Rel.none
  | some t => apply Option.Rel.some (.refl t)

theorem rel_trans {t? u? v? : Option FileTree} (h : Option.Rel Reordered t? u?)
    (h' : Option.Rel Reordered u? v?) : Option.Rel Reordered t? v? := by
  cases h with
  | none => exact h'
  | some h =>
    cases h' with
    | some h' => apply Option.Rel.some (h.trans h')

theorem Everywhere.wellNamed (h : Everywhere t u) (ht : t.WellNamed) : u.WellNamed := by
  intro names entries' hentries'
  have hrel := h names
  rw [hentries'] at hrel
  generalize hentries : t.at? names = inner? at hrel
  cases hrel with
  | @some inner _ hreordered =>
    have hdirectory := hreordered.isDirectory_eq
    have hperm := hreordered.perm_names
    cases inner with
    | directory entries =>
      have hnames := ht names entries hentries
      refine ⟨hperm.nodup_iff.1 hnames.1, ?_⟩
      intro name hname
      apply hnames.2 name (hperm.mem_iff.2 hname)
    | file _ => cases hdirectory
    | link _ => cases hdirectory

theorem child?_eq_of_perm {entries entries' : List (Bytes × FileTree)}
    (h : entries.Perm entries') (hentries : (entries.map (·.1)).Nodup) (name : Bytes) :
    (directory entries).child? name = (directory entries').child? name := by
  have hentries' := (h.map (·.1)).nodup_iff.1 hentries
  apply Option.ext
  intro t
  rw [child?_eq_some_iff hentries, child?_eq_some_iff hentries', h.mem_iff]

theorem everywhere (h : t.Reordered u) (ht : t.WellNamed) : Everywhere t u := by
  induction h with
  | refl =>
    intro names
    apply rel_refl
  | trans _ _ ih ih' =>
    -- The second step starts from a tree that has yet to be shown well named.
    have hfirst := ih ht
    have hsecond := ih' (hfirst.wellNamed ht)
    intro names
    apply rel_trans (hfirst names) (hsecond names)
  | @entries entries entries' h =>
    intro names
    cases names with
    | nil => apply Option.Rel.some (.entries h)
    | cons name names =>
      rw [at?, at?, child?_eq_of_perm h (ht [] entries rfl).1]
      apply rel_refl
  | @entry before after name t u h ih =>
    have hbelow := ih (ht.of_mem (List.mem_append_right _ List.mem_cons_self))
    intro names
    cases names with
    | nil => apply Option.Rel.some (.entry before after h)
    | cons name' names =>
      -- Only the entry itself can be found differently, as the first one of its name.
      simp only [at?, child?, FileTree.entries, List.find?_append, List.find?_cons]
      cases before.find? (·.1 = name') with
      | some => apply rel_refl
      | none =>
        by_cases hname : name = name'
        case pos =>
          simpa [hname] using hbelow names
        case neg =>
          simp only [hname, decide_false]
          apply rel_refl

section Found

variable {t? u? : Option FileTree}

theorem rel_none (h : Option.Rel Reordered t? u?) (ht : t? = none) : u? = none := by
  cases h with
  | none => rfl
  | some _ => cases ht

theorem rel_of_not_isDirectory (h : Option.Rel Reordered t? u?) (ht : t? = some t)
    (hfile : t.isDirectory = false) : u? = some t := by
  cases h with
  | none => cases ht
  | some h =>
    cases ht
    rw [h.eq_of_not_isDirectory hfile]

theorem rel_of_isDirectory (h : Option.Rel Reordered t? u?) (ht : t? = some t)
    (hdirectory : t.isDirectory = true) :
    ∃ entries, u? = some (.directory entries) ∧ t.Reordered (.directory entries) := by
  cases h with
  | none => cases ht
  | @some _ u h =>
    cases ht
    rw [h.isDirectory_eq] at hdirectory
    cases u with
    | directory entries => exact ⟨entries, rfl, h⟩
    | file _ => cases hdirectory
    | link _ => cases hdirectory

end Found

theorem Everywhere.child? (h : Everywhere t u) {names : List Bytes}
    {entries entries' : List (Bytes × FileTree)} (ht : t.at? names = some (.directory entries))
    (hu : u.at? names = some (.directory entries')) (name : Bytes) :
    Option.Rel Reordered ((directory entries).child? name) ((directory entries').child? name) := by
  have hrel := h (names ++ [name])
  have hconcat : ∀ t? : Option FileTree, t?.bind (·.at? []) = t? := by
    intro t?
    cases t? <;> rfl
  rw [at?_append, at?_append, ht, hu, Option.bind_some, Option.bind_some, at?, at?, hconcat,
    hconcat] at hrel
  exact hrel

end Reordered

theorem locate_eq_of_everywhere {top top' : FileTree} (h : Reordered.Everywhere top top')
    (links : Nat) (here pieces : List Bytes) :
    top'.locate links here pieces = top.locate links here pieces := by
  fun_induction locate top links here pieces with
  | case1 => rw [locate]
  | case2 _ here _ _ hnone =>
    rw [locate, Reordered.rel_none (h here) hnone]
  | case3 _ here _ _ _ hlink =>
    rw [locate, Reordered.rel_of_not_isDirectory (h here) hlink rfl]
  | case4 _ here _ _ _ hfile =>
    rw [locate, Reordered.rel_of_not_isDirectory (h here) hfile rfl]
  | case5 _ here _ _ _ hdirectory hidle ih =>
    rcases Reordered.rel_of_isDirectory (h here) hdirectory rfl with ⟨_, hdirectory', _⟩
    rw [locate, hdirectory']
    simp only [hidle, ↓reduceIte, ih]
  | case6 _ here _ _ hdirectory hidle ih =>
    rcases Reordered.rel_of_isDirectory (h here) hdirectory rfl with ⟨_, hdirectory', _⟩
    rw [locate, hdirectory']
    simp only [if_neg hidle, ↓reduceIte, ih]
  | case7 _ here _ _ _ hdirectory hidle hparent hlong =>
    rcases Reordered.rel_of_isDirectory (h here) hdirectory rfl with ⟨_, hdirectory', _⟩
    rw [locate, hdirectory']
    simp only [if_neg hidle, if_neg hparent, if_pos hlong]
  | case8 _ here piece _ _ hdirectory hidle hparent hlong hnone =>
    rcases Reordered.rel_of_isDirectory (h here) hdirectory rfl with ⟨_, hdirectory', _⟩
    have hchild := h.child? hdirectory hdirectory' piece
    rw [locate, hdirectory']
    simp only [if_neg hidle, if_neg hparent, if_neg hlong, Reordered.rel_none hchild hnone]
  | case9 here piece _ _ hdirectory hidle hparent hlong _ hlink =>
    rcases Reordered.rel_of_isDirectory (h here) hdirectory rfl with ⟨_, hdirectory', _⟩
    have hchild := h.child? hdirectory hdirectory' piece
    rw [locate, hdirectory']
    simp only [if_neg hidle, if_neg hparent, if_neg hlong,
      Reordered.rel_of_not_isDirectory hchild hlink rfl]
  | case10 here piece _ _ hdirectory hidle hparent hlong _ hlink _ ih =>
    rcases Reordered.rel_of_isDirectory (h here) hdirectory rfl with ⟨_, hdirectory', _⟩
    have hchild := h.child? hdirectory hdirectory' piece
    rw [locate, hdirectory']
    simp only [if_neg hidle, if_neg hparent, if_neg hlong,
      Reordered.rel_of_not_isDirectory hchild hlink rfl]
    exact ih
  | case11 _ here piece _ _ hdirectory hidle hparent hlong inner hnolink hinner ih =>
    rcases Reordered.rel_of_isDirectory (h here) hdirectory rfl with ⟨_, hdirectory', _⟩
    have hchild := h.child? hdirectory hdirectory' piece
    rw [locate, hdirectory']
    simp only [if_neg hidle, if_neg hparent, if_neg hlong]
    cases inner with
    | link target => exact absurd rfl (hnolink target)
    | file _ =>
      simp only [Reordered.rel_of_not_isDirectory hchild hinner rfl]
      exact ih
    | directory _ =>
      rcases Reordered.rel_of_isDirectory hchild hinner rfl with ⟨_, hinner', _⟩
      simp only [hinner']
      exact ih

end FileTree

namespace FileSystem

open FileTree

variable {fs : FileSystem} {top : FileTree}

theorem locate_eq_of_reordered (hnamed : fs.top.WellNamed) (h : fs.top.Reordered top) (p : Path) :
    ({ fs with top } : FileSystem).locate p = fs.locate p := by
  rw [locate, locate, locatePath, locatePath]
  simp only [locate_eq_of_everywhere (h.everywhere hnamed)]

theorem canonical_eq_of_reordered (hnamed : fs.top.WellNamed) (h : fs.top.Reordered top)
    (p : Path) : ({ fs with top } : FileSystem).canonical p = fs.canonical p := by
  rw [canonical, canonical, locate_eq_of_reordered hnamed h]

theorem directory?_of_reordered (hnamed : fs.top.WellNamed) (h : fs.top.Reordered top) {p : Path}
    {t : FileTree} (ht : fs.directory? p = some t) :
    ∃ t', ({ fs with top } : FileSystem).directory? p = some t' ∧ t.Reordered t' := by
  rw [directory?] at ht
  rw [directory?, locate_eq_of_reordered hnamed h]
  cases hlocate : fs.locate p with
  | error fault =>
    rw [hlocate] at ht
    cases ht
  | ok location =>
    rw [hlocate] at ht
    simp only [Option.filter_eq_some_iff] at ht
    rcases Reordered.rel_of_isDirectory (h.everywhere hnamed location) ht.1 ht.2 with
      ⟨entries, htop, hreordered⟩
    exact ⟨_, by simp [htop, isDirectory], hreordered⟩

theorem wellNamed_of_directory? (hnamed : fs.top.WellNamed) {p : Path} {t : FileTree}
    (ht : fs.directory? p = some t) : t.WellNamed := by
  rw [directory?] at ht
  split at ht
  next => exact hnamed.of_at? (Option.filter_eq_some_iff.1 ht).1
  next => cases ht

end FileSystem

end ComponentTree
