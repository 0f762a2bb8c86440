import Mathlib.Data.List.Basic
import ComponentTree.FileTree

/-!
This module contains the order of paths, which are compared component by component, and names by
their bytes. It is not the order of the bytes of the paths, in which a name may be cut off by a byte
before the slash.
-/

namespace ComponentTree.Path

namespace Component

def rank : Component → Nat
  | root => 0
  | here => 1
  | up => 2
  | name _ => 3

inductive Less : Component → Component → Prop
  | rank {a b : Component} (h : a.rank < b.rank) : Less a b
  | name {a b : Bytes} (h : a < b) : Less (.name a) (.name b)

instance : LT Component := ⟨Less⟩

theorem name_lt_name_iff {a b : Bytes} : Component.name a < Component.name b ↔ a < b := by
  constructor
  · intro h
    cases h with
    | rank h => exact absurd h (Nat.lt_irrefl 3)
    | name h => exact h
  · intro h
    exact Less.name h

theorem lt_asymm {a b : Component} (h : a < b) : ¬ b < a := by
  intro h'
  cases h with
  | rank h =>
    cases h' with
    | rank h' => omega
    | name _ => exact absurd h (Nat.lt_irrefl 3)
  | name h =>
    rw [name_lt_name_iff] at h'
    exact List.lt_asymm h h'

instance : Std.Asymm (α := Component) (· < ·) where
  asymm _ _ := lt_asymm

end Component

instance : LT Path where
  lt p q := p.components < q.components

theorem lt_iff {p q : Path} : p < q ↔ p.components < q.components := Iff.rfl

theorem lt_asymm {p q : Path} (h : p < q) : ¬ q < p :=
  List.lt_asymm h

theorem components_ne_of_lt {p q : Path} (h : p < q) : p.components ≠ q.components := by
  intro heq
  rw [lt_iff, heq] at h
  exact List.lt_irrefl _ h

def IsName (name : Bytes) : Prop :=
  slash ∉ name ∧ isIdle name = false ∧ name ≠ parentName

instance (name : Bytes) : Decidable (IsName name) :=
  inferInstanceAs (Decidable (_ ∧ _ ∧ _))

theorem pieces_append_slash (front back : Bytes) :
    (⟨front ++ slash :: back⟩ : Path).pieces = (⟨front⟩ : Path).pieces ++ (⟨back⟩ : Path).pieces :=
  List.splitOnP_append_cons front back (by simp)

theorem pieces_of_isName {name : Bytes} (h : IsName name) : (⟨name⟩ : Path).pieces = [name] :=
  List.splitOn_eq_singleton h.1

theorem isAbsolute_of_isName {name : Bytes} (h : IsName name) :
    (⟨name⟩ : Path).isAbsolute = false := by
  cases name with
  | nil => rfl
  | cons c name =>
    have := h.1
    simp only [List.mem_cons, not_or] at this
    simp [isAbsolute, Ne.symm this.1]

theorem child_eq (p : Path) {name : Bytes} (h : IsName name) (hp : p.isAbsolute = true) :
    ∃ front : Bytes, p.child name = ⟨front ++ slash :: name⟩
      ∧ (p.bytes = front ∨ p.bytes = front ++ [slash]) := by
  have hrelative := isAbsolute_of_isName h
  have hne : p.bytes ≠ [] := by
    intro hnil
    rw [isAbsolute, hnil] at hp
    cases hp
  rw [child, join, if_neg (by simp [hrelative])]
  -- No second slash is put behind a path that ends in one, as that of the root does.
  by_cases hslash : p.endsInSlash = true
  · have hlast : p.bytes.getLast hne = slash := by
      simpa [endsInSlash, List.getLast?_eq_some_getLast hne] using hslash
    refine ⟨p.bytes.dropLast, ?_, .inr ?_⟩
    · rw [if_pos (by simp [hslash]), ← List.singleton_append, ← List.append_assoc, ← hlast,
        List.dropLast_append_getLast hne]
    · rw [← hlast, List.dropLast_append_getLast hne]
  · refine ⟨p.bytes, ?_, .inl rfl⟩
    rw [if_neg (by simp [hslash, hne])]

theorem isAbsolute_child {p : Path} {name : Bytes} (h : IsName name) (hp : p.isAbsolute = true) :
    (p.child name).isAbsolute = true := by
  rcases child_eq p h hp with ⟨front, hchild, hfront | hfront⟩
  all_goals
    rw [isAbsolute, hfront] at hp
    rw [hchild, isAbsolute]
    cases front <;> simp_all

theorem components_child {p : Path} {name : Bytes} (h : IsName name) (hp : p.isAbsolute = true) :
    (p.child name).components = p.components ++ [.name name] := by
  have hlead : (p.child name).lead? = p.lead? := by
    rw [lead?, lead?, if_pos (isAbsolute_child h hp), if_pos hp]
  have hname : Component.ofPiece? name = some (.name name) := by
    rw [Component.ofPiece?, h.2.1, if_neg Bool.false_ne_true, if_neg h.2.2]
  rcases child_eq p h hp with ⟨front, hchild, hfront⟩
  have hpieces : p.pieces.filterMap Component.ofPiece?
      = (⟨front⟩ : Path).pieces.filterMap Component.ofPiece? := by
    rcases hfront with hfront | hfront
    · rw [← hfront]
    · have : p = ⟨front ++ slash :: []⟩ := congrArg Path.mk hfront
      rw [this, pieces_append_slash, List.filterMap_append]
      simp [pieces, Component.ofPiece?, isIdle]
  rw [components, components, hlead, hpieces, hchild, pieces_append_slash, pieces_of_isName h,
    List.filterMap_append, List.filterMap_cons_some hname, List.filterMap_nil, List.append_assoc]

theorem components_children {p : Path} {names : List Bytes} (hnames : ∀ name ∈ names, IsName name)
    (hp : p.isAbsolute = true) :
    (names.foldl child p).components = p.components ++ names.map .name := by
  induction names generalizing p with
  | nil => simp
  | cons name names ih =>
    rw [List.forall_mem_cons] at hnames
    rw [List.foldl_cons, ih hnames.2 (isAbsolute_child hnames.1 hp), components_child hnames.1 hp,
      List.append_assoc]
    rfl

theorem isAbsolute_ofNames (names : List Bytes) : (ofNames names).isAbsolute = true := rfl

end ComponentTree.Path
