import ComponentTree.Proofs.Markup.Reading
import ComponentTree.Proofs.Tree.Layout

/-!
This module contains the reading of the lists of an HTML document. They are read as nested elements,
whatever characters the labels hold, and the elements as the trees of labels that were listed.
-/

namespace ComponentTree

namespace Markup

def blanks (count : Nat) : List Markup :=
  (List.replicate count ' ').map .char

def block (indent : Nat) (name : Text) (attributes : List (Text × Text)) (content : List Markup) :
    List Markup :=
  blanks indent
    ++ [.element name attributes (.char '\n' :: (content ++ blanks indent)), .char '\n']

def labelContent (label : Text) : List Markup :=
  [.element "span".toList [("class".toList, "toggle".toList)] [],
    .element "span".toList [("class".toList, "label".toList)] (label.map .char),
    .element "button".toList
      [("class".toList, "hide-btn".toList),
        ("title".toList, "Hide all '".toList ++ label ++ ['\x27'])]
      [.char '×']]

def labelMarkup (isParent : Bool) (label : Text) : Markup :=
  .element "div".toList
    [("class".toList, if isParent then "node parent".toList else "node".toList)]
    (labelContent label)

theorem character?_escapeHtmlChar_append (c : Char) (rest : Text) :
    character? (Tree.escapeHtmlChar c ++ rest) = some (c, rest) := by
  unfold Tree.escapeHtmlChar
  split
  next h => subst h; rfl
  next hampersand =>
  iterate 5
    split
    next h => subst h; rfl
  rw [List.singleton_append, character?, if_neg hampersand]

theorem head?_escapeHtmlChar (c : Char) :
    (Tree.escapeHtmlChar c).head? ≠ some '\x22' ∧ (Tree.escapeHtmlChar c).head? ≠ some '<' := by
  unfold Tree.escapeHtmlChar
  split
  next h => decide
  split
  next h => decide
  next htag =>
  split
  next h => decide
  split
  next h => decide
  next hquote =>
  iterate 2
    split
    next h => decide
  simp [htag, hquote]

theorem writes_escapeHtml (label : Text) : Writes (Tree.escapeHtml label) label := by
  induction label with
  | nil => apply Writes.nil
  | cons c label ih =>
    rw [Tree.escapeHtml, List.flatMap_cons]
    apply Writes.cons _ _ (head?_escapeHtmlChar c) ih
    intro rest
    apply character?_escapeHtmlChar_append

theorem spells_blanks (count : Nat) :
    Spells (List.replicate count ' ') (contentTokens (blanks count)) := by
  rw [blanks, contentTokens_map_char]
  apply spells_of_writes
  apply Writes.plain
  rw [List.all_replicate]
  cases count <;> rfl

theorem spells_lineEnd : Spells ['\n'] [.char '\n'] :=
  spells_of_writes (Writes.plain ['\n'] (by decide))

theorem spells_characters {written text : Text} (h : Writes written text) :
    Spells written (contentTokens (text.map .char)) := by
  rw [contentTokens_map_char]
  apply spells_of_writes h

theorem spells_element (name : Text) (inner : List Markup) {text content : Text}
    {attributes : List (Text × Text)} (hname : isName name = true)
    (h : WritesAttributes text attributes) (hcontent : Spells content (contentTokens inner)) :
    Spells ('<' :: (name ++ (text ++ ['>'])) ++ content ++ '<' :: '/' :: (name ++ ['>']))
      (tokens (.element name attributes inner)) := by
  have := ((spells_opening hname h).append hcontent).append (spells_closing hname)
  simpa [tokens] using this

theorem spells_labelElement (isParent : Bool) (label : Text) :
    Spells (Tree.labelElement isParent label) (tokens (labelMarkup isParent label)) := by
  have hclass : (if isParent then "node parent".toList else "node".toList).all isPlain = true := by
    cases isParent <;> decide
  unfold Tree.labelElement labelMarkup labelContent
  generalize (if isParent then "node parent".toList else "node".toList) = className at hclass ⊢
  have htitle := ((Writes.plain "Hide all '".toList (by decide)).append
    (writes_escapeHtml label)).append (Writes.plain ['\x27'] (by decide))
  have htoggle := spells_element "span".toList [] (by decide)
    (.cons "class".toList (by decide) (.plain "toggle".toList (by decide)) .nil) .nil
  have hlabel := spells_element "span".toList (label.map .char) (by decide)
    (.cons "class".toList (by decide) (.plain "label".toList (by decide)) .nil)
    (spells_characters (writes_escapeHtml label))
  have hbutton := spells_element "button".toList [.char '×'] (by decide)
    (.cons "class".toList (by decide) (.plain "hide-btn".toList (by decide))
      (.cons "title".toList (by decide) htitle .nil))
    (spells_characters (.plain ['×'] (by decide)))
  have hdiv := spells_element "div".toList [_, _, _] (by decide)
    (.cons "class".toList (by decide) (.plain className hclass) .nil)
    (htoggle.append (hlabel.append (hbutton.append .nil)))
  convert hdiv using 1
  simp

theorem spells_block (indent : Nat) (name : Text) {text opening closing : Text}
    {attributes : List (Text × Text)} {lines : List Text} {content : List Markup}
    (hname : isName name = true) (h : WritesAttributes text attributes)
    (hopening : opening = '<' :: (name ++ (text ++ ['>'])))
    (hclosing : closing = '<' :: '/' :: (name ++ ['>']))
    (hlines : Spells (Text.unlines (LabelTree.indented (indent + 2) lines))
      (contentTokens content)) :
    Spells (Text.unlines (LabelTree.indented indent (LabelTree.element opening closing lines)))
      (contentTokens (block indent name attributes content)) := by
  have hcontent := spells_lineEnd.append (hlines.append (spells_blanks indent))
  have hinner : [.char '\n'] ++ (contentTokens content ++ contentTokens (blanks indent))
      = contentTokens (.char '\n' :: (content ++ blanks indent)) := by
    rw [contentTokens, contentTokens_append, tokens]
  rw [hinner] at hcontent
  have hblock := ((spells_blanks indent).append
    (spells_element name _ hname h hcontent)).append spells_lineEnd
  convert hblock using 1
  · simp [LabelTree.element, hopening, hclosing]
  · simp [block, contentTokens_append, contentTokens, tokens]

end Markup

namespace LabelTree

open Markup

mutual

def itemMarkup (indent : Nat) : LabelTree → List Markup
  | .node label children =>
    let list :=
      match children with
      | [] => []
      | _ :: _ => block (indent + 2) "ul".toList [] (forestMarkup (indent + 4) children)
    block indent "li".toList []
      (blanks (indent + 2) ++ labelMarkup (!children.isEmpty) label :: .char '\n' :: list)

def forestMarkup (indent : Nat) : List LabelTree → List Markup
  | [] => []
  | tree :: trees => tree.itemMarkup indent ++ forestMarkup indent trees

end

def rootAttributes : List (Text × Text) :=
  [("class".toList, "tree-root".toList)]

def rootMarkup (tree : LabelTree) : List Markup :=
  block 4 "ul".toList rootAttributes (tree.itemMarkup 6)

theorem spells_labelLine (indent : Nat) (isParent : Bool) (label : Text) :
    Spells (Text.unlines [List.replicate indent ' ' ++ Tree.labelElement isParent label])
      (contentTokens (blanks indent ++ [labelMarkup isParent label, .char '\n'])) := by
  have := ((spells_blanks indent).append (spells_labelElement isParent label)).append
    spells_lineEnd
  simpa [contentTokens_append, contentTokens, tokens] using this

mutual

theorem spells_item (indent : Nat) :
    ∀ tree : LabelTree,
      Spells (Text.unlines (indented indent tree.item)) (contentTokens (tree.itemMarkup indent))
  | .node label [] => by
    rw [item, itemMarkup]
    apply spells_block indent "li".toList (by decide) .nil rfl rfl
    apply spells_labelLine (indent + 2) false label
  | .node label (child :: children) => by
    rw [item, itemMarkup]
    apply spells_block indent "li".toList (by decide) .nil rfl rfl
    have hlabel := spells_labelLine (indent + 2) true label
    have hlist := spells_block (indent + 2) "ul".toList (by decide) .nil rfl rfl
      (spells_forestItems (indent + 4) (child :: children))
    have hitem := hlabel.append hlist
    rw [← Text.unlines_append, ← contentTokens_append] at hitem
    simpa using hitem

theorem spells_forestItems (indent : Nat) :
    ∀ trees : List LabelTree,
      Spells (Text.unlines (indented indent (forestItems trees)))
        (contentTokens (forestMarkup indent trees))
  | [] => .nil
  | tree :: trees => by
    rw [forestItems, forestMarkup, indented_append, Text.unlines_append, contentTokens_append]
    apply (spells_item indent tree).append (spells_forestItems indent trees)

end

def rootsMarkup (trees : List LabelTree) : List Markup :=
  trees.flatMap rootMarkup

theorem spells_rootLists (trees : List LabelTree) :
    Spells (Text.unlines (trees.flatMap rootList)) (contentTokens (rootsMarkup trees)) := by
  induction trees with
  | nil => apply Text.Spells.nil
  | cons tree trees ih =>
    rw [rootsMarkup, List.flatMap_cons, List.flatMap_cons, Text.unlines_append,
      contentTokens_append]
    refine Text.Spells.append ?_ ih
    apply spells_block 4 "ul".toList (by decide)
      (.cons "class".toList (by decide) (.plain "tree-root".toList (by decide)) .nil) rfl rfl
    apply spells_item 6 tree

end LabelTree

end ComponentTree
