import ComponentTree.Proofs.Text.Basic
import Mathlib.Data.List.Basic

/-!
This module contains the reading of markup: a text is taken apart into tags and characters, where a
character may be written as a reference, and the tags are put together to nested elements. A text in
which a tag is not closed in its place is not read at all.
-/

namespace ComponentTree

inductive Markup where
  | element (name : Text) (attributes : List (Text × Text)) (content : List Markup)
  | char (c : Char)

namespace Markup

inductive Token where
  | opening (name : Text) (attributes : List (Text × Text))
  | closing (name : Text)
  | char (c : Char)

def references : List (Text × Char) :=
  [("amp;".toList, '&'), ("lt;".toList, '<'), ("gt;".toList, '>'), ("quot;".toList, '\x22'),
    ("#x27;".toList, '\x27'), ("#x2F;".toList, '/')]

def character? : (text : Text) → Option (Char × Text)
  | [] => none
  | c :: text =>
    if c = '&' then references.findSome? fun r => (Text.after? r.1 text).map (r.2, ·)
    else some (c, text)

theorem length_lt_of_character? {text rest : Text} {c : Char}
    (h : character? text = some (c, rest)) : rest.length < text.length := by
  unfold character? at h
  split at h
  next => cases h
  next =>
    split at h
    next =>
      rcases List.exists_of_findSome?_eq_some h with ⟨r, _, hr⟩
      rw [Option.map_eq_some_iff] at hr
      rcases hr with ⟨_, hafter, heq⟩
      cases heq
      rw [Text.after?_eq_some_iff] at hafter
      rw [hafter, List.length_cons, List.length_append]
      omega
    next =>
      cases h
      simp

def value? : (text : Text) → Option (Text × Text)
  | [] => none
  | c :: text =>
    if c = '\x22' then some ([], text)
    else
      match h : character? (c :: text) with
      | none => none
      | some (c, rest) =>
        have := length_lt_of_character? h
        (value? rest).map fun (value, rest) => (c :: value, rest)
termination_by text => text.length
decreasing_by assumption

theorem length_lt_of_value? {text value rest : Text} (h : value? text = some (value, rest)) :
    rest.length < text.length := by
  fun_induction value? text generalizing value rest with
  | case1 => cases h
  | case2 =>
    cases h
    simp
  | case3 => cases h
  | case4 _ _ _ _ _ _ hlt ih =>
    simp only [Option.map_eq_some_iff, Prod.exists, Prod.mk.injEq] at h
    rcases h with ⟨_, _, hvalue, _, rfl⟩
    have := ih hvalue
    omega

def isNameChar (c : Char) : Bool :=
  c.isAlphanum || c = '-'

def name? (text : Text) : Option (Text × Text) :=
  let name := text.takeWhile isNameChar
  if name = [] then none else some (name, text.dropWhile isNameChar)

theorem length_lt_of_name? {text name rest : Text} (h : name? text = some (name, rest)) :
    rest.length < text.length := by
  simp only [name?, Option.ite_none_left_eq_some, Option.some.injEq, Prod.mk.injEq] at h
  rcases h with ⟨hne, _, rfl⟩
  have hlength := congrArg List.length
    (List.takeWhile_append_dropWhile (p := isNameChar) (l := text))
  have := List.length_pos_of_ne_nil hne
  rw [List.length_append] at hlength
  omega

def attribute? (text : Text) : Option ((Text × Text) × Text) :=
  (name? text).bind fun (name, text) =>
    (Text.after? ['=', '\x22'] text).bind fun text =>
      (value? text).map fun (value, rest) => ((name, value), rest)

theorem length_lt_of_attribute? {text rest : Text} {attr : Text × Text}
    (h : attribute? text = some (attr, rest)) : rest.length < text.length := by
  simp only [attribute?, Option.bind_eq_some_iff, Option.map_eq_some_iff, Prod.exists,
    Prod.mk.injEq] at h
  rcases h with ⟨_, text', hname, text'', hafter, _, _, hvalue, _, rfl⟩
  have := length_lt_of_name? hname
  have := length_lt_of_value? hvalue
  rw [Text.after?_eq_some_iff] at hafter
  rw [hafter, List.length_append] at *
  omega

def attributes? : (text : Text) → Option (List (Text × Text) × Text)
  | [] => none
  | c :: text =>
    if c = '>' then some ([], text)
    else if c = ' ' then
      match h : attribute? text with
      | none => none
      | some (attr, rest) =>
        have := length_lt_of_attribute? h
        (attributes? rest).map fun (attributes, rest) => (attr :: attributes, rest)
    else none
termination_by text => text.length

theorem length_lt_of_attributes? {text rest : Text} {attributes : List (Text × Text)}
    (h : attributes? text = some (attributes, rest)) : rest.length < text.length := by
  fun_induction attributes? text generalizing attributes rest with
  | case1 => cases h
  | case2 =>
    cases h
    simp
  | case3 => cases h
  | case4 _ _ _ _ _ hlt ih =>
    simp only [Option.map_eq_some_iff, Prod.exists, Prod.mk.injEq] at h
    rcases h with ⟨_, _, hattributes, _, rfl⟩
    have := ih hattributes
    rw [List.length_cons]
    omega
  | case5 => cases h

def tag? : (text : Text) → Option (Token × Text)
  | '/' :: text =>
    (name? text).bind fun (name, text) => (Text.after? ['>'] text).map (.closing name, ·)
  | text =>
    (name? text).bind fun (name, text) =>
      (attributes? text).map fun (attributes, rest) => (.opening name attributes, rest)

def token? : (text : Text) → Option (Token × Text)
  | '<' :: text => tag? text
  | text => (character? text).map fun (c, rest) => (.char c, rest)

theorem length_lt_of_tag? {text rest : Text} {token : Token}
    (h : tag? text = some (token, rest)) : rest.length < text.length := by
  unfold tag? at h
  split at h
  next text =>
    simp only [Option.bind_eq_some_iff, Option.map_eq_some_iff, Prod.exists, Prod.mk.injEq] at h
    rcases h with ⟨_, text', hname, _, hafter, _, rfl⟩
    have := length_lt_of_name? hname
    rw [Text.after?_eq_some_iff] at hafter
    rw [hafter, List.length_append] at this
    rw [List.length_cons]
    omega
  next =>
    simp only [Option.bind_eq_some_iff, Option.map_eq_some_iff, Prod.exists, Prod.mk.injEq] at h
    rcases h with ⟨_, _, hname, _, _, hattributes, _, rfl⟩
    have := length_lt_of_name? hname
    have := length_lt_of_attributes? hattributes
    omega

theorem length_lt_of_token? {text rest : Text} {token : Token}
    (h : token? text = some (token, rest)) : rest.length < text.length := by
  unfold token? at h
  split at h
  next =>
    have := length_lt_of_tag? h
    rw [List.length_cons]
    omega
  next =>
    simp only [Option.map_eq_some_iff, Prod.exists, Prod.mk.injEq] at h
    rcases h with ⟨_, _, hc, _, rfl⟩
    apply length_lt_of_character? hc

def tokens? (text : Text) : Option (List Token) :=
  if text = [] then some []
  else
    match h : token? text with
    | none => none
    | some (token, rest) =>
      have := length_lt_of_token? h
      (tokens? rest).map (token :: ·)
termination_by text.length

structure Open where
  name : Text
  attributes : List (Text × Text)
  before : List Markup

def ofTokens? (outer : List Open) (content : List Markup) :
    (tokens : List Token) → Option (List Markup)
  | [] => if outer.isEmpty then some content.reverse else none
  | .char c :: rest => ofTokens? outer (.char c :: content) rest
  | .opening name attributes :: rest => ofTokens? (⟨name, attributes, content⟩ :: outer) [] rest
  | .closing name :: rest =>
    match outer with
    | [] => none
    | inner :: outer =>
      if inner.name = name then
        ofTokens? outer (.element name inner.attributes content.reverse :: inner.before) rest
      else none

def read? (text : Text) : Option (List Markup) :=
  (tokens? text).bind (ofTokens? [] [])

def isPlain (c : Char) : Bool :=
  c ≠ '&' && c ≠ '\x22' && c ≠ '<'

inductive Writes : (written text : Text) → Prop
  | nil : Writes [] []
  | cons (piece : Text) {written text : Text} {c : Char}
      (hpiece : ∀ rest, character? (piece ++ rest) = some (c, rest))
      (hfirst : piece.head? ≠ some '\x22' ∧ piece.head? ≠ some '<') (h : Writes written text) :
      Writes (piece ++ written) (c :: text)

namespace Writes

variable {written written' text text' : Text}

theorem append (h : Writes written text) (h' : Writes written' text') :
    Writes (written ++ written') (text ++ text') := by
  induction h with
  | nil => exact h'
  | cons piece hpiece hfirst _ ih =>
    rw [List.append_assoc]
    apply cons piece hpiece hfirst ih

theorem plain (text : Text) (h : text.all isPlain = true) : Writes text text := by
  induction text with
  | nil => apply nil
  | cons c text ih =>
    rw [List.all_cons, Bool.and_eq_true] at h
    have hc : (c ≠ '&' ∧ c ≠ '\x22') ∧ c ≠ '<' := by simpa [isPlain] using h.1
    apply cons [c]
    · intro rest
      simp [character?, hc.1.1]
    · simpa using ⟨hc.1.2, hc.2⟩
    · apply ih h.2

theorem value?_append (h : Writes written text) (rest : Text) :
    value? (written ++ '\x22' :: rest) = some (text, rest) := by
  induction h with
  | nil =>
    rw [List.nil_append, value?]
    rfl
  | @cons piece written text c hpiece hfirst _ ih =>
    have hread := hpiece (written ++ '\x22' :: rest)
    cases piece with
    | nil =>
      have := hpiece []
      cases this
    | cons d piece =>
      have hquote : d ≠ '\x22' := by simpa using hfirst.1
      rw [List.append_assoc, List.cons_append, value?, if_neg hquote]
      rw [List.cons_append] at hread
      split
      next hnone => rw [hread] at hnone; cases hnone
      next hsome =>
        rw [hread] at hsome
        cases hsome
        rw [ih]
        rfl

end Writes

theorem tokens?_of_token? {text rest : Text} {token : Token}
    (h : token? text = some (token, rest)) : tokens? text = (tokens? rest).map (token :: ·) := by
  have hne : text ≠ [] := by
    rintro rfl
    cases h
  rw [tokens?, if_neg hne]
  split
  next hnone => rw [h] at hnone; cases hnone
  next hsome => rw [h] at hsome; cases hsome; rfl

abbrev Spells (text : Text) (tokens : List Token) : Prop :=
  Text.Spells tokens? text tokens

theorem spells_of_writes {text text' : Text} (h : Writes text text') :
    Spells text (text'.map .char) := by
  induction h with
  | nil => apply Text.Spells.nil
  | @cons piece written text c hpiece hfirst _ ih =>
    intro rest
    have htoken : token? (piece ++ (written ++ rest)) = some (.char c, written ++ rest) := by
      have hread := hpiece (written ++ rest)
      cases piece with
      | nil =>
        have := hpiece []
        cases this
      | cons d piece =>
        rw [token?, hread]
        · rfl
        · rintro _ htag
          cases htag
          exact hfirst.2 rfl
    rw [List.append_assoc, tokens?_of_token? htoken, ih, Option.map_map]
    rfl

def isName (name : Text) : Bool :=
  !name.isEmpty && name.all isNameChar

theorem name?_append {name rest : Text} (hname : isName name = true)
    (hrest : ∀ c ∈ rest.head?, isNameChar c = false) :
    name? (name ++ rest) = some (name, rest) := by
  simp only [isName, Bool.and_eq_true, Bool.not_eq_true', List.isEmpty_eq_false_iff,
    List.all_eq_true] at hname
  have hstop : rest.takeWhile isNameChar = [] ∧ rest.dropWhile isNameChar = rest := by
    cases rest with
    | nil => exact ⟨rfl, rfl⟩
    | cons c rest => simp [hrest c rfl]
  rw [name?, List.takeWhile_append_of_pos hname.2, List.dropWhile_append_of_pos hname.2, hstop.1,
    hstop.2, List.append_nil, if_neg hname.1]

inductive WritesAttributes : Text → List (Text × Text) → Prop
  | nil : WritesAttributes [] []
  | cons (name : Text) {written value text : Text} {attributes : List (Text × Text)}
      (hname : isName name = true) (hvalue : Writes written value)
      (h : WritesAttributes text attributes) :
      WritesAttributes (' ' :: (name ++ '=' :: '\x22' :: (written ++ '\x22' :: text)))
        ((name, value) :: attributes)

theorem attributes?_append {text : Text} {attributes : List (Text × Text)}
    (h : WritesAttributes text attributes) (rest : Text) :
    attributes? (text ++ '>' :: rest) = some (attributes, rest) := by
  induction h with
  | nil =>
    rw [List.nil_append, attributes?]
    rfl
  | @cons name written value text attributes hname hvalue _ ih =>
    have hattribute : attribute? (name ++ '=' :: '\x22' :: (written ++ '\x22' :: text)
        ++ '>' :: rest) = some ((name, value), text ++ '>' :: rest) := by
      simp only [List.append_assoc, List.cons_append]
      rw [attribute?, name?_append hname (by simp [isNameChar])]
      simp only [Option.bind_some, Text.after?, ↓reduceIte, hvalue.value?_append, Option.map_some]
    rw [List.cons_append, attributes?]
    simp only [Char.reduceEq, ↓reduceIte]
    split
    next hnone => rw [hattribute] at hnone; cases hnone
    next hsome =>
      rw [hattribute] at hsome
      cases hsome
      rw [ih]
      rfl

theorem spells_opening {name text : Text} {attributes : List (Text × Text)}
    (hname : isName name = true) (h : WritesAttributes text attributes) :
    Spells ('<' :: (name ++ (text ++ ['>']))) [.opening name attributes] := by
  intro rest
  have hstop : ∀ c ∈ (text ++ '>' :: rest).head?, isNameChar c = false := by
    cases h <;> simp [isNameChar]
  have htag : tag? (name ++ (text ++ '>' :: rest)) = some (.opening name attributes, rest) := by
    rw [tag?]
    · rw [name?_append hname hstop, Option.bind_some]
      simp only [attributes?_append h, Option.map_some]
    · rintro text' heq
      cases name with
      | nil => cases hname
      | cons c name =>
        cases heq
        simp [isName, isNameChar] at hname
  have htoken : token? ('<' :: (name ++ (text ++ ['>'])) ++ rest)
      = some (.opening name attributes, rest) := by
    simp only [List.cons_append, List.append_assoc, List.nil_append, token?]
    exact htag
  rw [tokens?_of_token? htoken]
  rfl

theorem spells_closing {name : Text} (hname : isName name = true) :
    Spells ('<' :: '/' :: (name ++ ['>'])) [.closing name] := by
  intro rest
  have htoken : token? ('<' :: '/' :: (name ++ ['>']) ++ rest) = some (.closing name, rest) := by
    simp only [List.cons_append, List.append_assoc, List.nil_append, token?, tag?]
    rw [name?_append hname (by simp [isNameChar])]
    simp [Text.after?]
  rw [tokens?_of_token? htoken]
  rfl

mutual

def tokens : Markup → List Token
  | .element name attributes content =>
    .opening name attributes :: contentTokens content ++ [.closing name]
  | .char c => [.char c]

def contentTokens : List Markup → List Token
  | [] => []
  | markup :: content => markup.tokens ++ contentTokens content

end

theorem contentTokens_append (content content' : List Markup) :
    contentTokens (content ++ content') = contentTokens content ++ contentTokens content' := by
  induction content with
  | nil => rfl
  | cons markup content ih => simp [contentTokens, ih]

theorem contentTokens_map_char (text : Text) :
    contentTokens (text.map .char) = text.map .char := by
  induction text with
  | nil => rfl
  | cons c text ih => simp [contentTokens, tokens, ih]

mutual

theorem ofTokens?_tokens_append (outer : List Open) (content : List Markup) (rest : List Token) :
    ∀ markup : Markup,
      ofTokens? outer content (markup.tokens ++ rest) = ofTokens? outer (markup :: content) rest
  | .element name attributes inner => by
    rw [tokens, List.append_assoc, List.cons_append, ofTokens?, ofTokens?_contentTokens_append,
      List.singleton_append, ofTokens?, List.append_nil, List.reverse_reverse]
    simp
  | .char c => rfl

theorem ofTokens?_contentTokens_append (outer : List Open) (content : List Markup)
    (rest : List Token) :
    ∀ inner : List Markup, ofTokens? outer content (contentTokens inner ++ rest)
      = ofTokens? outer (inner.reverse ++ content) rest
  | [] => rfl
  | markup :: inner => by
    rw [contentTokens, List.append_assoc, ofTokens?_tokens_append, ofTokens?_contentTokens_append]
    simp

end

theorem read?_of_spells {text : Text} {content : List Markup}
    (h : Spells text (contentTokens content)) : read? text = some content := by
  have hnil : tokens? [] = some [] := by
    rw [tokens?, if_pos rfl]
  have hcontent := ofTokens?_contentTokens_append [] [] [] content
  rw [List.append_nil, List.append_nil] at hcontent
  rw [read?, h.tokens?_eq hnil, Option.bind_some, hcontent, ofTokens?]
  simp

end Markup

end ComponentTree
