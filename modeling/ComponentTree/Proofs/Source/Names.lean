import Mathlib.Data.List.Forall2
import Mathlib.Data.List.ReduceOption
import ComponentTree.Proofs.Source.Statements

/-!
This module contains what the items between the braces of named imports stand for, told by where an
alias starts and without a search, and the theorem that the names that a source imports are those
of the items of its statements.
-/

namespace ComponentTree.Source

open Text

def StartsAlias (text : Text) : Prop :=
  ∃ blanks blank rest, IsBlanks blanks ∧ isBlank blank = true ∧
    text = blanks ++ ("as".toList ++ blank :: rest)

/--
What an item between braces stands for: a blank one for nothing, and another one for the text
without the blanks around it, up to the first alias if there is one.
-/
inductive StandsFor : Text → Option Name → Prop
  | blank {item : Text} (h : ∀ c ∈ item, isBlank c = true) : StandsFor item none
  | plain {front core back : Text} (hfront : ∀ c ∈ front, isBlank c = true)
      (hback : ∀ c ∈ back, isBlank c = true) (hcore : IsTrimmed core)
      (h : ∀ before after, core = before ++ after → ¬StartsAlias after) :
      StandsFor (front ++ core ++ back) (some core)
  | aliased {front name suffix back : Text} (hfront : ∀ c ∈ front, isBlank c = true)
      (hback : ∀ c ∈ back, isBlank c = true) (hcore : IsTrimmed (name ++ suffix))
      (hsuffix : StartsAlias suffix)
      (hfirst : ∀ before after, name = before ++ after → after ≠ [] →
        ¬StartsAlias (after ++ suffix)) :
      StandsFor (front ++ (name ++ suffix) ++ back) (some name)

theorem startsAlias_iff {text : Text} : startsAlias text = true ↔ StartsAlias text := by
  rw [startsAlias, Option.any_eq_true]
  constructor
  · rintro ⟨rest, hbind, hblank⟩
    rcases Option.bind_eq_some_iff.1 hbind with ⟨after, hafter, hrest⟩
    obtain rfl := after?_eq_some_iff.1 hrest
    rcases afterBlanks?_eq_some hafter with ⟨blanks, hne, hblanks, rfl⟩
    cases rest with
    | nil => cases hblank
    | cons blank rest => exact ⟨blanks, blank, rest, ⟨hne, hblanks⟩, hblank, rfl⟩
  · rintro ⟨blanks, blank, rest, hblanks, hblank, rfl⟩
    have hword : ∀ c ∈ ("as".toList ++ blank :: rest).head?, isBlank c = false := by
      rintro c ⟨⟩
      rfl
    refine ⟨blank :: rest, ?_, hblank⟩
    rw [afterBlanks?_append hblanks hword, Option.bind_some, after?_eq_some_iff.2 rfl]

theorem not_startsAlias_nil : ¬StartsAlias [] := by
  rw [← startsAlias_iff]
  decide

theorem StartsAlias.isBlank_head {c : Char} {text : Text} (h : StartsAlias (c :: text)) :
    isBlank c = true := by
  rcases h with ⟨blanks, blank, rest, hblanks, _, htext⟩
  cases blanks with
  | nil => exact absurd rfl hblanks.1
  | cons b blanks =>
    cases htext
    exact hblanks.2 c List.mem_cons_self

theorem StartsAlias.cons {c : Char} {text : Text} (hc : isBlank c = true) (h : StartsAlias text) :
    StartsAlias (c :: text) := by
  rcases h with ⟨blanks, blank, rest, hblanks, hblank, rfl⟩
  refine ⟨c :: blanks, blank, rest, ⟨by simp, ?_⟩, hblank, rfl⟩
  rintro x (_ | ⟨_, hx⟩)
  · exact hc
  · exact hblanks.2 x hx

theorem cutAlias_append {name text : Text}
    (h : ∀ before after, name = before ++ after → after ≠ [] → ¬StartsAlias (after ++ text)) :
    cutAlias (name ++ text) = name ++ cutAlias text := by
  induction name with
  | nil => rfl
  | cons c name ih =>
    have hc : ¬startsAlias (c :: (name ++ text)) = true :=
      fun hc => h [] (c :: name) rfl (by simp) (startsAlias_iff.1 hc)
    rw [List.cons_append, cutAlias, if_neg hc, ih, List.cons_append]
    intro before after hname
    exact h (c :: before) after (by rw [hname, List.cons_append])

theorem cutAlias_of_startsAlias {text : Text} (h : StartsAlias text) : cutAlias text = [] := by
  cases text with
  | nil => rfl
  | cons c text => rw [cutAlias, if_pos (startsAlias_iff.2 h)]

theorem cutAlias_of_not_startsAlias {text : Text}
    (h : ∀ before after, text = before ++ after → ¬StartsAlias after) : cutAlias text = text := by
  have hnone : ∀ before after, text = before ++ after → after ≠ [] →
      ¬StartsAlias (after ++ []) := by
    intro before after htext _
    rw [List.append_nil]
    exact h before after htext
  have := cutAlias_append hnone
  rwa [List.append_nil, cutAlias, List.append_nil] at this

theorem exists_first_alias (text : Text) :
    (∀ before after, text = before ++ after → ¬StartsAlias after) ∨
      ∃ name suffix, text = name ++ suffix ∧ StartsAlias suffix ∧
        ∀ before after, name = before ++ after → after ≠ [] → ¬StartsAlias (after ++ suffix) := by
  induction text with
  | nil =>
    left
    intro before after htext
    rw [(List.append_eq_nil_iff.1 htext.symm).2]
    exact not_startsAlias_nil
  | cons c text ih =>
    by_cases hc : StartsAlias (c :: text)
    · right
      refine ⟨[], c :: text, rfl, hc, ?_⟩
      intro before after hnil hafter
      exact absurd (List.append_eq_nil_iff.1 hnil.symm).2 hafter
    · rcases ih with hnone | ⟨name, suffix, rfl, hsuffix, hfirst⟩
      · left
        intro before after htext
        rcases List.cons_eq_append_iff.1 htext with ⟨rfl, rfl⟩ | ⟨before, rfl, rfl⟩
        · exact hc
        · exact hnone before after rfl
      · right
        refine ⟨c :: name, suffix, rfl, hsuffix, ?_⟩
        intro before after hname hafter
        rcases List.cons_eq_append_iff.1 hname with ⟨rfl, rfl⟩ | ⟨before, rfl, rfl⟩
        · exact hc
        · exact hfirst before after rfl hafter

theorem isTrimmed_of_first_alias {name suffix : Text} (h : IsTrimmed (name ++ suffix))
    (hsuffix : StartsAlias suffix)
    (hfirst : ∀ before after, name = before ++ after → after ≠ [] →
      ¬StartsAlias (after ++ suffix)) : IsTrimmed name := by
  have hne : name ≠ [] := by
    rintro rfl
    cases suffix with
    | nil => exact not_startsAlias_nil hsuffix
    | cons c suffix =>
      have := h.head c rfl
      rw [hsuffix.isBlank_head] at this
      cases this
  -- A blank at the end of the name would be one at which the alias starts already.
  refine ⟨hne, ?_, ?_⟩
  · have := h.head
    rwa [List.head?_append_of_ne_nil _ hne] at this
  · intro c hc
    rcases List.getLast?_eq_some_iff.1 hc with ⟨before, rfl⟩
    rw [← Bool.not_eq_true]
    intro hblank
    exact hfirst before [c] rfl (by simp) (hsuffix.cons hblank)

theorem itemName?_of_trim {item core name : Text} (htrim : trim item = core)
    (hcut : cutAlias core = name) (hname : IsTrimmed name) : itemName? item = some name := by
  rw [itemName?, htrim, hcut, trim_of_isTrimmed hname]
  cases name with
  | nil => exact absurd rfl hname.ne_nil
  | cons c name => rfl

theorem StandsFor.itemName?_eq {item : Text} {found : Option Name} (h : StandsFor item found) :
    itemName? item = found := by
  cases h with
  | blank h =>
    rw [itemName?, trim_of_forall_isBlank h]
    rfl
  | plain hfront hback hcore h =>
    apply itemName?_of_trim (trim_append_append hfront hcore hback) _ hcore
    exact cutAlias_of_not_startsAlias h
  | aliased hfront hback hcore hsuffix hfirst =>
    apply itemName?_of_trim (trim_append_append hfront hcore hback) _
      (isTrimmed_of_first_alias hcore hsuffix hfirst)
    rw [cutAlias_append hfirst, cutAlias_of_startsAlias hsuffix, List.append_nil]

theorem exists_standsFor (item : Text) : ∃ found, StandsFor item found := by
  by_cases h : ∃ c ∈ item, isBlank c = false
  · rcases exists_isTrimmed h with ⟨front, core, back, hfront, hcore, hback, rfl⟩
    rcases exists_first_alias core with hnone | ⟨name, suffix, rfl, hsuffix, hfirst⟩
    · exact ⟨some core, .plain hfront hback hcore hnone⟩
    · exact ⟨some name, .aliased hfront hback hcore hsuffix hfirst⟩
  · refine ⟨none, .blank fun c hc => ?_⟩
    by_contra hblank
    exact h ⟨c, hc, Bool.not_eq_true _ ▸ hblank⟩

theorem standsFor_iff {item : Text} {found : Option Name} :
    StandsFor item found ↔ found = itemName? item := by
  constructor
  · exact fun h => h.itemName?_eq.symm
  · rintro rfl
    rcases exists_standsFor item with ⟨found, h⟩
    rwa [h.itemName?_eq]

theorem standsFor_none_iff {item : Text} :
    StandsFor item none ↔ ∀ c ∈ item, isBlank c = true := by
  constructor
  · rintro ⟨h⟩
    exact h
  · exact .blank

theorem StandsFor.isTrimmed {item : Text} {name : Name} (h : StandsFor item (some name)) :
    IsTrimmed name := by
  cases h with
  | plain _ _ hcore _ => exact hcore
  | aliased _ _ hcore hsuffix hfirst => exact isTrimmed_of_first_alias hcore hsuffix hfirst

theorem forall₂_standsFor_iff {items : List Text} {found : List (Option Name)} :
    List.Forall₂ StandsFor items found ↔ items.map itemName? = found := by
  rw [← List.forall₂_eq_eq_eq, List.forall₂_map_left_iff]
  constructor
  · exact List.Forall₂.imp fun _ _ h => h.itemName?_eq
  · exact List.Forall₂.imp fun _ _ h => standsFor_iff.2 h.symm

theorem importedNames_eq_reduceOption (source : Text) :
    importedNames source =
      (((itemLists source).flatMap fun items => items.splitOn ',').map itemName?).reduceOption := by
  rw [importedNames, List.reduceOption, List.filterMap_map, List.filterMap_flatMap]
  rfl

theorem importedNames_eq_iff (source : Text) (names : List Name) :
    (importedNames source = names ↔
      ∃ lists found, Statements source lists ∧
        List.Forall₂ StandsFor (lists.flatMap fun items => items.splitOn ',') found ∧
        names = found.reduceOption) ∧
    ∀ item, ∃ found, (∀ found', StandsFor item found' ↔ found' = found) ∧
      (found = none ↔ ∀ c ∈ item, isBlank c = true) ∧ found ≠ some [] := by
  refine ⟨⟨?_, ?_⟩, fun item => ⟨itemName? item, fun found => standsFor_iff, ?_, ?_⟩⟩
  · rintro rfl
    refine ⟨itemLists source, _, statements_itemLists source, forall₂_standsFor_iff.2 rfl, ?_⟩
    exact importedNames_eq_reduceOption source
  · rintro ⟨lists, found, hlists, hfound, rfl⟩
    rw [importedNames_eq_reduceOption, hlists.itemLists_eq, forall₂_standsFor_iff.1 hfound]
  · rw [← standsFor_none_iff, standsFor_iff, eq_comm]
  · intro hempty
    exact (standsFor_iff.2 hempty.symm).isTrimmed.ne_nil rfl

example :
    importedNames "import import \x7b A as as B, as C,,\x7d from './a\x22".toList
      = ["A".toList, "as C".toList] := by
  decide +kernel

end ComponentTree.Source
