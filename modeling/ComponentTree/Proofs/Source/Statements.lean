import ComponentTree.Proofs.Text.Trimmed
import ComponentTree.Source

/-!
This module contains the grammar of named imports. The statements of a text are told by what they
are spelled of and by where they start, without a search, and the search of the library finds just
these.
-/

namespace ComponentTree.Source

open Text

inductive IsStatement (items : Text) : Text → Prop
  | spelled {blanks₁ blanks₂ blanks₃ path : Text} {quote quote' : Char}
      (hblanks₁ : IsBlanks blanks₁) (hitems : items ≠ []) (hbraces : '\x7d' ∉ items)
      (hblanks₂ : IsBlanks blanks₂) (hblanks₃ : IsBlanks blanks₃)
      (hquote : isQuote quote = true) (hquote' : isQuote quote' = true)
      (hpath : path ≠ []) (hquotes : ∀ c ∈ path, isQuote c = false) :
      IsStatement items
        ("import".toList ++ (blanks₁ ++ '\x7b' :: (items ++ '\x7d' :: (blanks₂ ++
          ("from".toList ++ (blanks₃ ++ quote :: (path ++ [quote'])))))))

def StartsStatement (text : Text) : Prop :=
  ∃ items statement rest, IsStatement items statement ∧ text = statement ++ rest

/--
The statements of a text, from left to right, by what stands between their braces: each is the first
to start after the end of the one before it, and none starts after the end of the last.
-/
inductive Statements : Text → List Text → Prop
  | nil {text : Text} (h : ∀ front back, text = front ++ back → ¬StartsStatement back) :
      Statements text []
  | cons {before statement after items : Text} {lists : List Text}
      (h : IsStatement items statement)
      (hfirst : ∀ front back, before = front ++ back → back ≠ [] →
        ¬StartsStatement (back ++ (statement ++ after)))
      (hafter : Statements after lists) :
      Statements (before ++ (statement ++ after)) (items :: lists)

theorem isBlank_of_isQuote {c : Char} (h : isQuote c = true) : isBlank c = false := by
  rw [isQuote, Bool.or_eq_true, decide_eq_true_eq, decide_eq_true_eq] at h
  rcases h with rfl | rfl
  · rfl
  · rfl

theorem statement?_append {items statement : Text} (h : IsStatement items statement)
    (rest : Text) : statement? (statement ++ rest) = some (items, rest) := by
  cases h with
  | @spelled blanks₁ blanks₂ blanks₃ path quote quote' hblanks₁ hitems hbraces hblanks₂ hblanks₃
      hquote hquote' hpath hquotes =>
    have hbrace (text : Text) : ∀ c ∈ ('{' :: text).head?, isBlank c = false := by
      rintro c ⟨⟩
      rfl
    have hfrom (text : Text) : ∀ c ∈ ("from".toList ++ text).head?, isBlank c = false := by
      rintro c ⟨⟩
      rfl
    have hopen (text : Text) : ∀ c ∈ (quote :: text).head?, isBlank c = false := by
      rintro c ⟨⟩
      exact isBlank_of_isQuote hquote
    have hlist : ∀ c ∈ items, decide (c = '}') = false := by
      intro c hc
      apply decide_eq_false
      rintro rfl
      exact hbraces hc
    have hafter (text : Text) : after? ['{'] ('{' :: text) = some text :=
      after?_eq_some_iff.2 rfl
    simp only [List.append_assoc, List.cons_append, List.nil_append, statement?,
      Option.bind_eq_bind]
    rw [after?_eq_some_iff.2 rfl, Option.bind_some, afterBlanks?_append hblanks₁ (hbrace _),
      Option.bind_some, hafter, Option.bind_some, upTo?_append hitems hlist (by decide),
      Option.bind_some]
    dsimp only
    rw [afterBlanks?_append hblanks₂ (hfrom _), Option.bind_some, after?_eq_some_iff.2 rfl,
      Option.bind_some, afterBlanks?_append hblanks₃ (hopen _), Option.bind_some]
    dsimp only
    rw [if_pos hquote, upTo?_append hpath hquotes hquote']
    rfl

theorem isStatement_of_statement? {text items rest : Text}
    (h : statement? text = some (items, rest)) :
    ∃ statement, IsStatement items statement ∧ text = statement ++ rest := by
  simp only [statement?, Option.bind_eq_bind, Option.bind_eq_some_iff] at h
  obtain ⟨t₁, h₁, t₂, h₂, t₃, h₃, ⟨items', t₄⟩, h₄, t₅, h₅, t₆, h₆, t₇, h₇, h⟩ := h
  rw [after?_eq_some_iff] at h₁ h₃ h₆
  obtain ⟨blanks₁, hne₁, hblanks₁, h₂⟩ := afterBlanks?_eq_some h₂
  obtain ⟨brace, hbrace, hitems, hbraces, h₄⟩ := upTo?_eq_some h₄
  obtain ⟨blanks₂, hne₂, hblanks₂, h₅⟩ := afterBlanks?_eq_some h₅
  obtain ⟨blanks₃, hne₃, hblanks₃, h₇⟩ := afterBlanks?_eq_some h₇
  cases t₇ with
  | nil => simp at h
  | cons quote t₈ =>
    dsimp only at h
    split at h
    next hquote =>
      simp only [Option.bind_eq_some_iff, Prod.exists, Option.some.injEq, Prod.mk.injEq] at h
      obtain ⟨path, t₉, h₉, rfl, rfl⟩ := h
      obtain ⟨quote', hquote', hpath, hquotes, h₉⟩ := upTo?_eq_some h₉
      obtain rfl := of_decide_eq_true hbrace
      subst h₁ h₂ h₃ h₄ h₅ h₆ h₇ h₉
      refine ⟨_, .spelled ⟨hne₁, hblanks₁⟩ hitems ?_ ⟨hne₂, hblanks₂⟩ ⟨hne₃, hblanks₃⟩ hquote
        hquote' hpath hquotes, by simp⟩
      intro hmem
      exact absurd rfl (of_decide_eq_false (hbraces _ hmem))
    next => simp at h

theorem statement?_eq_none_iff {text : Text} :
    statement? text = none ↔ ¬StartsStatement text := by
  constructor
  · rintro hnone ⟨items, statement, rest, h, rfl⟩
    rw [statement?_append h rest] at hnone
    cases hnone
  · intro hstarts
    cases h : statement? text with
    | none => rfl
    | some found =>
      rcases isStatement_of_statement? h with ⟨statement, hstatement, htext⟩
      exact absurd ⟨_, statement, _, hstatement, htext⟩ hstarts

theorem not_startsStatement_nil : ¬StartsStatement [] :=
  statement?_eq_none_iff.1 rfl

theorem IsStatement.ne_nil {items statement : Text} (h : IsStatement items statement) :
    statement ≠ [] := by
  cases h
  simp

theorem itemLists_append {before text : Text}
    (h : ∀ front back, before = front ++ back → back ≠ [] → ¬StartsStatement (back ++ text)) :
    itemLists (before ++ text) = itemLists text := by
  induction before with
  | nil => rfl
  | cons c before ih =>
    have hnone : statement? (c :: (before ++ text)) = none :=
      statement?_eq_none_iff.2 (h [] (c :: before) rfl (by simp))
    rw [List.cons_append, itemLists]
    split
    next heq =>
      rw [hnone] at heq
      cases heq
    next =>
      apply ih
      intro front back hbefore
      exact h (c :: front) back (by rw [hbefore, List.cons_append])

theorem itemLists_statement_append {items statement : Text} (h : IsStatement items statement)
    (rest : Text) : itemLists (statement ++ rest) = items :: itemLists rest := by
  have hsome := statement?_append h rest
  cases hstatement : statement ++ rest with
  | nil => exact absurd (List.append_eq_nil_iff.1 hstatement).1 h.ne_nil
  | cons c text =>
    rw [hstatement] at hsome
    rw [itemLists]
    split
    next heq =>
      rw [hsome] at heq
      cases heq
      rfl
    next heq =>
      rw [hsome] at heq
      cases heq

theorem Statements.itemLists_eq {text : Text} {lists : List Text} (h : Statements text lists) :
    itemLists text = lists := by
  induction h with
  | @nil text h =>
    rw [← List.append_nil text, itemLists_append, itemLists]
    intro front back htext _
    rw [List.append_nil]
    exact h front back htext
  | cons h hfirst _ ih => rw [itemLists_append hfirst, itemLists_statement_append h, ih]

theorem Statements.cons_of_not_startsStatement {c : Char} {text : Text} {lists : List Text}
    (hc : ¬StartsStatement (c :: text)) (h : Statements text lists) :
    Statements (c :: text) lists := by
  -- A tail of the longer text is the whole of it or a tail of `text`.
  cases h with
  | nil h =>
    apply Statements.nil
    intro front back htext
    rcases List.cons_eq_append_iff.1 htext with ⟨rfl, rfl⟩ | ⟨front, rfl, rfl⟩
    · exact hc
    · exact h front back rfl
  | @cons before statement after items lists h hfirst hafter =>
    rw [← List.cons_append]
    apply Statements.cons h _ hafter
    intro front back hbefore hback
    rcases List.cons_eq_append_iff.1 hbefore with ⟨rfl, rfl⟩ | ⟨front, rfl, rfl⟩
    · exact hc
    · exact hfirst front back rfl hback

theorem statements_itemLists (text : Text) : Statements text (itemLists text) := by
  fun_induction itemLists text with
  | case1 =>
    apply Statements.nil
    intro front back htext
    rw [(List.append_eq_nil_iff.1 htext.symm).2]
    exact not_startsStatement_nil
  | case2 c text items rest h _ ih =>
    rcases isStatement_of_statement? h with ⟨statement, hstatement, htext⟩
    rw [htext, ← List.nil_append (statement ++ rest)]
    apply Statements.cons hstatement _ ih
    intro front back hnil hback
    exact absurd (List.append_eq_nil_iff.1 hnil.symm).2 hback
  | case3 c text h ih => exact ih.cons_of_not_startsStatement (statement?_eq_none_iff.1 h)

end ComponentTree.Source
