import Mathlib.Data.List.Induction
import ComponentTree.Lists
import ComponentTree.Proofs.Path.Order

/-!
This module contains the paths that are spelled by names from the top down: such a path is taken
apart into these names again, and is that of a directory with a further name if it goes on.
-/

namespace ComponentTree.Path

variable {names : List Bytes}

theorem pieces_ne_nil (p : Path) : p.pieces ≠ [] :=
  List.splitOn_ne_nil _ _

theorem pieces_ofNames (hslash : ∀ name ∈ names, slash ∉ name) (hne : names ≠ []) :
    (ofNames names).pieces = [] :: names := by
  have hnil : (⟨[]⟩ : Path).pieces = [[]] := List.splitOn_nil _
  have hnames : (⟨[slash].intercalate names⟩ : Path).pieces = names :=
    List.splitOn_intercalate slash hslash hne
  have := pieces_append_slash [] ([slash].intercalate names)
  rw [hnil, hnames] at this
  exact this

theorem components_ofNames (hnames : ∀ name ∈ names, IsName name) :
    (ofNames names).components = .root :: names.map .name := by
  by_cases hne : names = []
  · subst hne
    decide
  · have hpieces : names.filterMap Component.ofPiece? = names.map .name := by
      rw [← List.filterMap_eq_map]
      apply List.filterMap_congr
      intro name hname
      have := hnames name hname
      rw [Component.ofPiece?, this.2.1, if_neg Bool.false_ne_true, if_neg this.2.2]
      rfl
    rw [components, lead?, if_pos (isAbsolute_ofNames names),
      pieces_ofNames (fun name hname => (hnames name hname).1) hne, List.filterMap_cons, hpieces]
    rfl

theorem eq_of_same_ofNames {names' : List Bytes} (hnames : ∀ name ∈ names, IsName name)
    (hnames' : ∀ name ∈ names', IsName name) (h : (ofNames names).Same (ofNames names')) :
    names = names' := by
  rw [Same, components_ofNames hnames, components_ofNames hnames', List.cons.injEq] at h
  apply List.map_injective_iff.2 _ h.2
  intro a b hab
  cases hab
  rfl

theorem bytes_ofNames_concat (name : Bytes) (hne : names ≠ []) :
    (ofNames (names ++ [name])).bytes = (ofNames names).bytes ++ slash :: name := by
  rw [ofNames, ofNames, intercalate_append_singleton [slash] name hne, List.append_assoc]
  rfl

theorem nul_not_mem_ofNames (hnul : ∀ name ∈ names, (0 : UInt8) ∉ name) :
    (0 : UInt8) ∉ (ofNames names).bytes := by
  induction names using List.reverseRecOn with
  | nil => decide
  | append_singleton names name ih =>
    rw [List.forall_mem_append, List.forall_mem_singleton] at hnul
    by_cases hne : names = []
    · subst hne
      simpa [ofNames, slash] using hnul.2
    · rw [bytes_ofNames_concat name hne, List.mem_append, List.mem_cons]
      have := ih hnul.1
      simp [this, hnul.2, slash]

theorem endsInSlash_ofNames (hnames : ∀ name ∈ names, IsName name) (hne : names ≠ []) :
    (ofNames names).endsInSlash = false := by
  rcases List.eq_nil_or_concat names with hnil | ⟨above, name, rfl⟩
  · contradiction
  · rw [List.concat_eq_append] at hnames ⊢
    have hname := hnames name (by simp)
    have hslash : name.getLast? ≠ some slash := by
      intro hlast
      exact hname.1 (List.mem_of_getLast? hlast)
    have hnonempty : name ≠ [] := by
      rintro rfl
      exact absurd hname.2.1 (by decide)
    have hlast : (ofNames (above ++ [name])).bytes.getLast? = name.getLast? := by
      by_cases habove : above = []
      · subst habove
        simp [ofNames, List.intercalate, List.getLast?_cons,
          List.getLast?_eq_some_getLast hnonempty]
      · rw [bytes_ofNames_concat name habove, List.getLast?_append, List.getLast?_cons,
          List.getLast?_eq_some_getLast hnonempty]
        rfl
    rw [endsInSlash, hlast, decide_eq_false hslash]

theorem child_ofNames {name : Bytes} (hnames : ∀ name ∈ names, IsName name) (h : IsName name) :
    (ofNames names).child name = ofNames (names ++ [name]) := by
  have hrelative := isAbsolute_of_isName h
  rw [child, join, if_neg (by simp [hrelative])]
  by_cases hne : names = []
  · subst hne
    simp [ofNames, endsInSlash, List.intercalate]
  · have hclosed := endsInSlash_ofNames hnames hne
    have hbytes : (ofNames names).bytes ≠ [] := by simp [ofNames]
    rw [if_neg (by simp [hclosed, hbytes]), ← bytes_ofNames_concat name hne]

end ComponentTree.Path
