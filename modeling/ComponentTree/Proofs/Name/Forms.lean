import ComponentTree.Lists
import ComponentTree.Proofs.Text.Lowercase
import ComponentTree.Source
import Mathlib.Data.List.SplitBy

/-!
This module contains the pieces that a name is made of, each up to a capital that directly follows a
small letter, and the theorem that both forms of a name are made of the same lowercased pieces: the
kebab form has hyphens between them, and the plain form has nothing.
-/

namespace ComponentTree.Name

open Text

def isTransition (c d : Char) : Bool :=
  c.isLower && d.isUpper

def pieces (name : Name) : List Name :=
  name.splitBy fun c d => !isTransition c d

def transitions (name : Name) : Nat :=
  (name.zip name.tail).countP fun (c, d) => isTransition c d

theorem flatten_pieces (name : Name) : name.pieces.flatten = name :=
  List.flatten_splitBy _ name

theorem isChain_of_mem_pieces {name piece : Name} (h : piece ∈ name.pieces) :
    piece.IsChain fun c d => isTransition c d = false := by
  have := List.isChain_of_mem_splitBy h
  simpa using this

theorem isChain_pieces (name : Name) : name.pieces.IsChain fun piece next =>
    ∃ c ∈ piece.getLast?, ∃ d ∈ next.head?, isTransition c d = true := by
  apply (List.isChain_getLast_head_splitBy (fun c d => !isTransition c d) name).imp
  rintro piece next ⟨hpiece, hnext, h⟩
  refine ⟨_, List.getLast_mem_getLast? hpiece, _, List.head_mem_head? hnext, ?_⟩
  simpa using h

/-! ### Hyphens -/

theorem hyphenate_cons_cons (c d : Char) (name : Name) : hyphenate (c :: d :: name)
    = c :: (if isTransition c d then '-' :: hyphenate (d :: name) else hyphenate (d :: name)) := by
  simp [hyphenate, hyphenate.go, isTransition]

theorem hyphenate_of_isChain {piece : Name}
    (h : piece.IsChain fun c d => isTransition c d = false) : hyphenate piece = piece := by
  induction piece with
  | nil => rfl
  | cons c piece ih =>
    cases piece with
    | nil => rfl
    | cons d piece =>
      rw [List.isChain_cons_cons] at h
      rw [hyphenate_cons_cons, h.1, ih h.2]
      rfl

theorem hyphenate_append {front back : Name}
    (h : ∃ c ∈ front.getLast?, ∃ d ∈ back.head?, isTransition c d = true) :
    hyphenate (front ++ back) = hyphenate front ++ '-' :: hyphenate back := by
  rcases h with ⟨c, hc, d, hd, h⟩
  obtain ⟨back, rfl⟩ := List.head?_eq_some_iff.1 hd
  induction front with
  | nil => cases hc
  | cons b front ih =>
    cases front with
    | nil =>
      obtain rfl : b = c := by simpa using hc
      rw [List.singleton_append, hyphenate_cons_cons, if_pos h]
      rfl
    | cons b' front =>
      rw [List.cons_append, List.cons_append, hyphenate_cons_cons, ← List.cons_append,
        ih (by simpa using hc), hyphenate_cons_cons]
      split <;> simp

theorem hyphenate_eq_intercalate (name : Name) :
    hyphenate name = ['-'].intercalate name.pieces := by
  -- Cutting at transitions and having them at the borders only are the same, piece by piece.
  suffices h : ∀ pieces : List Name,
      (∀ piece ∈ pieces, piece.IsChain fun c d => isTransition c d = false) →
      (pieces.IsChain fun piece next =>
        ∃ c ∈ piece.getLast?, ∃ d ∈ next.head?, isTransition c d = true) →
      hyphenate pieces.flatten = ['-'].intercalate pieces by
    have := h name.pieces (fun _ => isChain_of_mem_pieces) name.isChain_pieces
    rwa [flatten_pieces] at this
  intro pieces
  induction pieces with
  | nil => exact fun _ _ => rfl
  | cons piece pieces ih =>
    intro hpieces hborders
    rw [List.forall_mem_cons] at hpieces
    cases pieces with
    | nil => simpa using hyphenate_of_isChain hpieces.1
    | cons next pieces =>
      rw [List.isChain_cons_cons] at hborders
      rcases hborders with ⟨⟨c, hc, d, hd, h⟩, hborders⟩
      have hhead : d ∈ (next :: pieces).flatten.head? := by
        obtain ⟨next, rfl⟩ := List.head?_eq_some_iff.1 hd
        rfl
      rw [List.flatten_cons, hyphenate_append ⟨c, hc, d, hhead, h⟩, hyphenate_of_isChain hpieces.1,
        ih hpieces.2 hborders, List.intercalate_cons_cons]
      simp

theorem transitions_cons_cons (c d : Char) (name : Name) :
    transitions (c :: d :: name)
      = transitions (d :: name) + if isTransition c d then 1 else 0 := by
  simp only [transitions, List.tail_cons, List.zip_cons_cons, List.countP_cons]

theorem count_hyphenate (name : Name) :
    (hyphenate name).count '-' = name.count '-' + name.transitions := by
  induction name with
  | nil => rfl
  | cons c name ih =>
    cases name with
    | nil => rfl
    | cons d name =>
      rw [hyphenate_cons_cons, transitions_cons_cons, List.count_cons,
        List.count_cons (l := d :: name)]
      split
      · rw [List.count_cons_self, ih]
        omega
      · rw [ih]
        omega

theorem hyphenate_of_transitions_eq_zero {name : Name} (h : name.transitions = 0) :
    hyphenate name = name := by
  induction name with
  | nil => rfl
  | cons c name ih =>
    cases name with
    | nil => rfl
    | cons d name =>
      rw [transitions_cons_cons] at h
      rw [hyphenate_cons_cons]
      split at h
      next => omega
      next hnone => rw [if_neg hnone, ih h]

/-! ### Pieces of the two forms -/

theorem isBarrier_of_isTransition {c d : Char} (h : isTransition c d = true) :
    IsBarrier c ∧ IsBarrier d := by
  rw [isTransition, Bool.and_eq_true] at h
  exact ⟨isBarrier_of_isAlpha (isAlpha_iff.2 (.inr h.1)),
    isBarrier_of_isAlpha (isAlpha_iff.2 (.inl h.2))⟩

theorem lowercase_intercalate_pieces {sep : Text} (hsep : ∀ c ∈ sep, IsBarrier c) (name : Name) :
    Text.lowercase (sep.intercalate name.pieces)
      = (Text.lowercase sep).intercalate (name.pieces.map Text.lowercase) := by
  apply lowercase_intercalate hsep
  apply name.isChain_pieces.imp
  rintro piece next ⟨c, hc, d, hd, h⟩
  have := isBarrier_of_isTransition h
  exact ⟨⟨c, hc, this.1⟩, d, hd, this.2⟩

theorem kebab_eq_intercalate_and_plain_eq_flatten (name : Name) :
    name.kebab = ['-'].intercalate (name.pieces.map Text.lowercase) ∧
    name.plain = (name.pieces.map Text.lowercase).flatten ∧
    name.kebab.count '-' = name.count '-' + name.transitions := by
  refine ⟨?_, ?_, ?_⟩
  · have hhyphen : ∀ c ∈ ['-'], IsBarrier c := List.forall_mem_singleton.2 (by decide)
    rw [kebab, hyphenate_eq_intercalate, lowercase_intercalate_pieces hhyphen]
    rfl
  · have hnil : ∀ c ∈ ([] : Text), IsBarrier c := List.forall_mem_nil _
    have := lowercase_intercalate_pieces hnil name
    rw [intercalate_nil_left, flatten_pieces] at this
    rw [plain, this]
    exact intercalate_nil_left _
  · rw [kebab, count_lowercase, count_hyphenate]

end ComponentTree.Name
