import Mathlib.Data.List.Basic
import Mathlib.Data.List.TakeWhile
import ComponentTree.Text.Blank

/-!
This module contains runs of blanks and texts with no blanks around them: reading past blanks stops
where the run ends, and trimming takes off the blanks around such a text and nothing else.
-/

namespace ComponentTree.Text

def IsBlanks (text : Text) : Prop :=
  text ≠ [] ∧ ∀ c ∈ text, isBlank c = true

structure IsTrimmed (text : Text) : Prop where
  ne_nil : text ≠ []
  head : ∀ c ∈ text.head?, isBlank c = false
  last : ∀ c ∈ text.getLast?, isBlank c = false

variable {text front back blanks rest : Text}

theorem trimStart_of_head (h : ∀ c ∈ text.head?, isBlank c = false) : trimStart text = text := by
  cases text with
  | nil => rfl
  | cons c text => exact List.dropWhile_cons_of_neg (by simp [h c rfl])

theorem trimEnd_of_last (h : ∀ c ∈ text.getLast?, isBlank c = false) : trimEnd text = text := by
  have hreverse : trimStart text.reverse = text.reverse := trimStart_of_head (by simpa using h)
  rw [trimStart] at hreverse
  rw [trimEnd, hreverse, List.reverse_reverse]

theorem trimEnd_append_of_forall_isBlank (h : ∀ c ∈ back, isBlank c = true) :
    trimEnd (text ++ back) = trimEnd text := by
  have hback : ∀ c ∈ back.reverse, isBlank c = true := by simpa using h
  have hreverse := trimStart_append_of_forall_isBlank hback text.reverse
  rw [trimStart, trimStart] at hreverse
  rw [trimEnd, List.reverse_append, hreverse, trimEnd]

theorem afterBlanks?_append (h : IsBlanks blanks) (hrest : ∀ c ∈ rest.head?, isBlank c = false) :
    afterBlanks? (blanks ++ rest) = some rest := by
  rcases blanks with _ | ⟨c, blanks⟩
  · exact absurd rfl h.1
  · have hblanks : ∀ x ∈ blanks, isBlank x = true := fun x hx => h.2 x (List.mem_cons_of_mem _ hx)
    rw [List.cons_append, afterBlanks?, if_pos (h.2 c List.mem_cons_self),
      trimStart_append_of_forall_isBlank hblanks, trimStart_of_head hrest]

theorem trim_append_append (hfront : ∀ c ∈ front, isBlank c = true) (h : IsTrimmed text)
    (hback : ∀ c ∈ back, isBlank c = true) : trim (front ++ text ++ back) = text := by
  have hhead : ∀ c ∈ (text ++ back).head?, isBlank c = false := by
    rw [List.head?_append_of_ne_nil _ h.ne_nil]
    exact h.head
  rw [trim, List.append_assoc, trimStart_append_of_forall_isBlank hfront, trimStart_of_head hhead,
    trimEnd_append_of_forall_isBlank hback, trimEnd_of_last h.last]

theorem trim_of_isTrimmed (h : IsTrimmed text) : trim text = text := by
  have hnil : ∀ c ∈ ([] : Text), isBlank c = true := by simp
  simpa using trim_append_append hnil h hnil

theorem trim_of_forall_isBlank (h : ∀ c ∈ text, isBlank c = true) : trim text = [] := by
  rw [trim, trimStart, List.dropWhile_eq_nil_iff.2 h]
  rfl

theorem exists_trimStart (h : ∃ c ∈ text, isBlank c = false) :
    ∃ front rest, (∀ c ∈ front, isBlank c = true) ∧ text = front ++ rest ∧ rest ≠ [] ∧
      ∀ c ∈ rest.head?, isBlank c = false := by
  refine ⟨text.takeWhile isBlank, text.dropWhile isBlank, ?_, ?_, ?_, ?_⟩
  · exact List.all_eq_true.1 List.all_takeWhile
  · rw [List.takeWhile_append_dropWhile]
  · rcases h with ⟨c, hc, hblank⟩
    intro hnil
    have := List.dropWhile_eq_nil_iff.1 hnil c hc
    simp [hblank] at this
  · intro c hc
    have := List.head?_dropWhile_not isBlank text
    rw [Option.mem_def.1 hc] at this
    exact this

theorem exists_isTrimmed (h : ∃ c ∈ text, isBlank c = false) :
    ∃ front core back, (∀ c ∈ front, isBlank c = true) ∧ IsTrimmed core ∧
      (∀ c ∈ back, isBlank c = true) ∧ text = front ++ core ++ back := by
  -- The blanks at the end are those at the front of the reversed rest.
  rcases exists_trimStart h with ⟨front, rest, hfront, rfl, hne, hhead⟩
  have hnotblank : ∃ c ∈ rest.reverse, isBlank c = false := by
    cases rest with
    | nil => contradiction
    | cons c rest => exact ⟨c, by simp, hhead c rfl⟩
  rcases exists_trimStart hnotblank with ⟨back, core, hback, hrest, hcore, hlast⟩
  obtain rfl : rest = core.reverse ++ back.reverse := by
    simpa using congrArg List.reverse hrest
  refine ⟨front, core.reverse, back.reverse, hfront, ⟨?_, ?_, ?_⟩, ?_, ?_⟩
  · simpa using hcore
  · rwa [List.head?_append_of_ne_nil _ (by simpa using hcore)] at hhead
  · simpa using hlast
  · simpa using hback
  · rw [List.append_assoc]

end ComponentTree.Text
