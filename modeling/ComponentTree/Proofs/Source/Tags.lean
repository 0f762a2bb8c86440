import Mathlib.Data.List.TakeWhile
import ComponentTree.Lists
import ComponentTree.Source

/-!
This module contains the opening tags of a text told by the positions at which they stand, without a
search. The search of the library finds just these, in their order, so that a text may be cut in two
wherever no name is cut.
-/

namespace ComponentTree.Source

/--
Whether the opening tag of `tag` stands at the front of a text: `<` and then, with a letter first,
all characters up to one that no tag's name holds.
-/
def StartsTag (tag : Name) (text : Text) : Prop :=
  ∃ rest, text = '<' :: (tag ++ rest) ∧ (∃ c ∈ tag.head?, c.isAlpha = true) ∧
    (∀ c ∈ tag, isTagChar c = true) ∧ ∀ c ∈ rest.head?, isTagChar c = false

def tagAtFront? : (text : Text) → Option Name
  | '<' :: c :: text => if c.isAlpha then some (c :: text.takeWhile isTagChar) else none
  | _ => none

def placedTags (text : Text) : List (Nat × Name) :=
  (List.range text.length).filterMap fun i => (tagAtFront? (text.drop i)).map (i, ·)

theorem isTagChar_of_isAlpha {c : Char} (h : c.isAlpha = true) : isTagChar c = true := by
  simp [isTagChar, Char.isAlphanum, h]

theorem ne_of_isTagChar {c : Char} (h : isTagChar c = true) : c ≠ '<' := by
  rintro rfl
  exact absurd h (by decide)

theorem takeWhile_isTagChar_append (text : Text) {rest : Text}
    (h : ∀ c ∈ rest.head?, isTagChar c = false) :
    (text ++ rest).takeWhile isTagChar = text.takeWhile isTagChar := by
  induction text with
  | nil =>
    cases rest with
    | nil => rfl
    | cons c rest => simp [h c rfl]
  | cons c text ih => rw [List.cons_append, List.takeWhile_cons, List.takeWhile_cons, ih]

theorem tagAtFront?_eq_some_iff {text : Text} {tag : Name} :
    tagAtFront? text = some tag ↔ StartsTag tag text := by
  constructor
  · intro h
    unfold tagAtFront? at h
    split at h
    next c text =>
      split at h
      next hc =>
        cases h
        refine ⟨text.dropWhile isTagChar, ?_, ⟨c, rfl, hc⟩, ?_, ?_⟩
        · rw [List.cons_append, List.takeWhile_append_dropWhile]
        · rintro x (_ | ⟨_, hx⟩)
          · exact isTagChar_of_isAlpha hc
          · exact List.all_eq_true.1 List.all_takeWhile x hx
        · intro x hx
          have := List.head?_dropWhile_not isTagChar text
          rw [Option.mem_def.1 hx] at this
          simpa using this
      next => cases h
    next => cases h
  · rintro ⟨rest, rfl, ⟨c, hc, halpha⟩, htag, hrest⟩
    cases tag with
    | nil => cases hc
    | cons d tag =>
      cases hc
      have hrun : tag.takeWhile isTagChar = tag :=
        List.takeWhile_eq_self_iff.2 fun x hx => htag x (List.mem_cons_of_mem _ hx)
      rw [List.cons_append, tagAtFront?, if_pos halpha, takeWhile_isTagChar_append tag hrest, hrun]

theorem tagAtFront?_cons_of_ne {c : Char} (text : Text) (h : c ≠ '<') :
    tagAtFront? (c :: text) = none := by
  unfold tagAtFront?
  split
  next heq =>
    cases heq
    contradiction
  next => rfl

theorem map_placedTags (text : Text) : (placedTags text).map (·.2)
    = (List.range text.length).filterMap fun i => tagAtFront? (text.drop i) := by
  rw [placedTags, List.map_filterMap]
  congr 1
  funext i
  cases tagAtFront? (text.drop i) <;> rfl

theorem map_placedTags_cons (c : Char) (text : Text) : (placedTags (c :: text)).map (·.2)
    = (tagAtFront? (c :: text)).toList ++ (placedTags text).map (·.2) := by
  rw [map_placedTags, map_placedTags, List.length_cons, List.range_succ_eq_map,
    List.filterMap_cons, List.filterMap_map]
  cases h : tagAtFront? (c :: text) with
  | none =>
    simp only [List.drop_zero, h]
    rfl
  | some tag =>
    simp only [List.drop_zero, h]
    rfl

theorem map_placedTags_append_of_not_mem {text : Text} (rest : Text) (h : '<' ∉ text) :
    (placedTags (text ++ rest)).map (·.2) = (placedTags rest).map (·.2) := by
  induction text with
  | nil => rfl
  | cons c text ih =>
    rw [List.mem_cons, not_or] at h
    rw [List.cons_append, map_placedTags_cons, tagAtFront?_cons_of_ne _ (Ne.symm h.1), ih h.2]
    rfl

theorem openingTags_eq_map_placedTags (text : Text) :
    openingTags text = (placedTags text).map (·.2) := by
  fun_induction openingTags text with
  | case1 => rfl
  | case2 c text hc ih =>
    -- What the search skips is the name, and no `<` is in it.
    have hrun : '<' ∉ c :: text.takeWhile isTagChar := by
      intro hmem
      rcases List.mem_cons.1 hmem with rfl | hmem
      · exact absurd hc (by decide)
      · exact ne_of_isTagChar (List.all_eq_true.1 List.all_takeWhile _ hmem) rfl
    have hafter := map_placedTags_append_of_not_mem (text.dropWhile isTagChar) hrun
    rw [List.cons_append, List.takeWhile_append_dropWhile] at hafter
    rw [map_placedTags_cons, hafter, ← ih, tagAtFront?, if_pos hc]
    rfl
  | case3 c text hc ih =>
    rw [map_placedTags_cons, ← ih, tagAtFront?, if_neg hc]
    rfl
  | case4 c text h ih =>
    have hnone : tagAtFront? (c :: text) = none := by
      unfold tagAtFront?
      split
      next heq =>
        cases heq
        exact (h _ _ rfl rfl).elim
      next => rfl
    rw [map_placedTags_cons, ← ih, hnone]
    rfl

theorem tagAtFront?_append (c : Char) (text : Text) {rest : Text}
    (h : ∀ c ∈ rest.head?, isTagChar c = false) :
    tagAtFront? (c :: (text ++ rest)) = tagAtFront? (c :: text) := by
  by_cases hc : c = '<'
  · subst hc
    cases text with
    | cons d text =>
      rw [List.cons_append, tagAtFront?, tagAtFront?, takeWhile_isTagChar_append text h]
    | nil =>
      cases rest with
      | nil => rfl
      | cons d rest =>
        have hd : ¬d.isAlpha = true := by
          intro hd
          have := h d rfl
          rw [isTagChar_of_isAlpha hd] at this
          cases this
        rw [List.nil_append, tagAtFront?, if_neg hd]
        rfl
  · rw [tagAtFront?_cons_of_ne _ hc, tagAtFront?_cons_of_ne _ hc]

theorem openingTags_append (text : Text) {rest : Text}
    (h : ∀ c ∈ rest.head?, isTagChar c = false) :
    openingTags (text ++ rest) = openingTags text ++ openingTags rest := by
  simp only [openingTags_eq_map_placedTags]
  induction text with
  | nil => rfl
  | cons c text ih =>
    rw [List.cons_append, map_placedTags_cons, map_placedTags_cons, tagAtFront?_append c text h, ih,
      List.append_assoc]

theorem componentTags_append (text : Text) {rest : Text}
    (h : ∀ c ∈ rest.head?, isTagChar c = false) :
    componentTags (text ++ rest)
      = componentTags text ++ (componentTags rest).filter (· ∉ componentTags text) := by
  unfold componentTags
  rw [openingTags_append text h, List.filter_append, List.eraseDups_append, List.removeAll,
    eraseDups_filter _ (List.filter isComponentTag (openingTags rest))]
  congr 2
  funext tag
  simp [List.mem_eraseDups]

theorem openingTags_append_closing (text rest : Text) :
    openingTags (text ++ '<' :: '/' :: rest) = openingTags (text ++ '/' :: rest) := by
  have hopen : openingTags ('<' :: '/' :: rest) = openingTags ('/' :: rest) := by
    simp only [openingTags_eq_map_placedTags]
    rw [map_placedTags_cons]
    rfl
  rw [openingTags_append text (by rintro c ⟨⟩; rfl), openingTags_append text (by rintro c ⟨⟩; rfl),
    hopen]

theorem pairwise_placedTags (text : Text) : (placedTags text).Pairwise (·.1 < ·.1) := by
  rw [placedTags, List.pairwise_filterMap]
  refine List.pairwise_lt_range.imp ?_
  intro i j hij tag htag tag' htag'
  simp only [Option.map_eq_some_iff] at htag htag'
  obtain ⟨_, _, rfl⟩ := htag
  obtain ⟨_, _, rfl⟩ := htag'
  exact hij

theorem StartsTag.ne_nil {tag : Name} {text : Text} (h : StartsTag tag text) : text ≠ [] := by
  rcases h with ⟨rest, rfl, _⟩
  simp

theorem mem_placedTags_iff {text : Text} {i : Nat} {tag : Name} :
    (i, tag) ∈ placedTags text ↔ StartsTag tag (text.drop i) := by
  simp only [placedTags, List.mem_filterMap, List.mem_range, Option.map_eq_some_iff, Prod.mk.injEq,
    tagAtFront?_eq_some_iff]
  constructor
  · rintro ⟨_, _, _, h, rfl, rfl⟩
    exact h
  · intro h
    refine ⟨i, ?_, tag, h, rfl, rfl⟩
    apply Nat.lt_of_not_le
    intro hi
    exact h.ne_nil (List.drop_eq_nil_iff.2 hi)

theorem componentTags_eq_eraseDups_and_append (source : Text) :
    (∃ placed : List (Nat × Name), placed.Pairwise (·.1 < ·.1) ∧
      (∀ i tag, (i, tag) ∈ placed ↔ StartsTag tag (source.drop i)) ∧
      componentTags source = ((placed.map (·.2)).filter isComponentTag).eraseDups) ∧
    (∀ rest : Text, (∀ c ∈ rest.head?, isTagChar c = false) →
      componentTags (source ++ rest)
        = componentTags source ++ (componentTags rest).filter (· ∉ componentTags source)) ∧
    ∀ rest,
      componentTags (source ++ '<' :: '/' :: rest) = componentTags (source ++ '/' :: rest) := by
  refine ⟨⟨placedTags source, pairwise_placedTags source, fun i tag => mem_placedTags_iff, ?_⟩,
    fun rest => componentTags_append source, fun rest => ?_⟩
  · rw [componentTags, openingTags_eq_map_placedTags]
  · rw [componentTags, componentTags, openingTags_append_closing]

def mixedSource : Text :=
  "<<Aé<b<b-c</b-c><".toList

theorem componentTags_eq_eraseDups_and_append_mixedSource :
    (∀ c ∈ "/<b-c><Card".toList.head?, isTagChar c = false) ∧
      componentTags mixedSource = ["A".toList, "b-c".toList] ∧
      componentTags (mixedSource ++ "/<b-c><Card".toList)
        = ["A".toList, "b-c".toList, "Card".toList] := by
  have hhead : ∀ c ∈ "/<b-c><Card".toList.head?, isTagChar c = false := by
    rintro c ⟨⟩
    rfl
  have hfront : componentTags mixedSource = ["A".toList, "b-c".toList] := by decide +kernel
  have hback : componentTags "/<b-c><Card".toList = ["b-c".toList, "Card".toList] := by
    decide +kernel
  refine ⟨hhead, hfront, ?_⟩
  rw [(componentTags_eq_eraseDups_and_append mixedSource).2.1 _ hhead, hfront, hback]
  decide

end ComponentTree.Source
