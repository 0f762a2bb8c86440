import Mathlib.Data.List.Forall2
import ComponentTree.Proofs.Tree.Listing

/-!
This module contains the trees of labels that nested lists show. They are read from the elements
alone, so that no label can make a list look like another one.
-/

namespace ComponentTree

namespace Markup

def isLayout (c : Char) : Bool :=
  c = ' ' || c = '\n'

def char? : Markup → Option Char
  | .element _ _ _ => none
  | .char c => some c

def isElement : Markup → Bool
  | .element _ _ _ => true
  | .char _ => false

def labelText? : Markup → Option Text
  | .element name attributes content =>
    if name = "span".toList ∧ attributes = [("class".toList, "label".toList)] then
      content.mapM char?
    else none
  | .char _ => none

def label? (name : Text) (content : List Markup) : Option Text :=
  if name = "div".toList then content.findSome? labelText? else none

mutual

def forest? : List Markup → Option (List LabelTree)
  | [] => some []
  | .char c :: rest => if isLayout c then forest? rest else none
  | .element name attributes content :: rest =>
    if name = "li".toList ∧ attributes = [] then
      (tree? content).bind fun tree => (forest? rest).map (tree :: ·)
    else none

def tree? : List Markup → Option LabelTree
  | [] => none
  | .char c :: rest => if isLayout c then tree? rest else none
  | .element name _ content :: rest =>
    (label? name content).bind fun label => (below? rest).map (.node label)

def below? : List Markup → Option (List LabelTree)
  | [] => some []
  | .char c :: rest => if isLayout c then below? rest else none
  | .element name attributes content :: rest =>
    if name = "ul".toList ∧ attributes = [] ∧ rest.all (·.char?.any isLayout) then
      forest? content
    else none

end

def roots? : List Markup → Option (List LabelTree)
  | [] => some []
  | .char c :: rest => if isLayout c then roots? rest else none
  | .element name attributes content :: rest =>
    if name = "ul".toList ∧ attributes = LabelTree.rootAttributes then
      match forest? content with
      | some [tree] => (roots? rest).map (tree :: ·)
      | _ => none
    else none

def named (name : Text) : List Markup → List (List (Text × Text) × List Markup)
  | [] => []
  | .char _ :: rest => named name rest
  | .element name' attributes content :: rest =>
    (if name' = name then [(attributes, content)] else []) ++ named name content
      ++ named name rest

def outlineValue (name value : Text) : Text :=
  if name = "title".toList then [] else value

def outline : List Markup → List Markup
  | [] => []
  | .char _ :: rest => outline rest
  | .element name attributes content :: rest =>
    .element name (attributes.map fun a => (a.1, outlineValue a.1 a.2)) (outline content)
      :: outline rest

def SkipsLayout {α : Type} (read : List Markup → α) : Prop :=
  ∀ c rest, isLayout c = true → read (.char c :: rest) = read rest

namespace SkipsLayout

variable {α : Type} {read : List Markup → α}

theorem newline (h : SkipsLayout read) (rest : List Markup) :
    read (.char '\n' :: rest) = read rest :=
  h '\n' rest rfl

theorem blanks_append (h : SkipsLayout read) (count : Nat) (rest : List Markup) :
    read (blanks count ++ rest) = read rest := by
  induction count with
  | zero => rfl
  | succ count ih =>
    rw [← ih]
    apply h ' ' _ rfl

theorem block_append (h : SkipsLayout read) (indent : Nat) (name : Text)
    (attributes : List (Text × Text)) (content rest : List Markup) :
    read (block indent name attributes content ++ rest)
      = read (.element name attributes (.char '\n' :: (content ++ blanks indent))
        :: .char '\n' :: rest) := by
  rw [block, List.append_assoc, h.blanks_append]
  rfl

end SkipsLayout

theorem skipsLayout_forest? : SkipsLayout forest? := by
  intro c rest hc
  rw [forest?, if_pos hc]

theorem skipsLayout_tree? : SkipsLayout tree? := by
  intro c rest hc
  rw [tree?, if_pos hc]

theorem skipsLayout_below? : SkipsLayout below? := by
  intro c rest hc
  rw [below?, if_pos hc]

theorem skipsLayout_roots? : SkipsLayout roots? := by
  intro c rest hc
  rw [roots?, if_pos hc]

theorem skipsLayout_named (name : Text) : SkipsLayout (named name) := by
  intro c rest _
  rw [named]

theorem skipsLayout_outline : SkipsLayout outline := by
  intro c rest _
  rw [outline]

theorem skipsLayout_elements : SkipsLayout (List.filter isElement) := by
  intro c rest _
  rfl

theorem mapM_char?_map_char (text : Text) : (text.map Markup.char).mapM char? = some text := by
  induction text with
  | nil => rfl
  | cons c text ih => simp [char?, ih]

theorem label?_labelContent (label : Text) :
    label? "div".toList (labelContent label) = some label := by
  rw [labelContent, label?, if_pos rfl, List.findSome?_cons, labelText?, if_neg (by decide),
    List.findSome?_cons, labelText?, if_pos ⟨rfl, rfl⟩, mapM_char?_map_char]

theorem tree?_of_below? (indent count : Nat) (isParent : Bool) (label : Text)
    {list : List Markup} {children : List LabelTree}
    (h : below? (list ++ blanks count) = some children) :
    tree? (blanks indent ++ labelMarkup isParent label :: .char '\n' :: list ++ blanks count)
      = some (.node label children) := by
  rw [List.append_assoc, skipsLayout_tree?.blanks_append, List.cons_append, List.cons_append,
    labelMarkup, tree?, label?_labelContent, Option.bind_some, skipsLayout_below?.newline, h]
  rfl

theorem below?_blanks (count : Nat) : below? (blanks count) = some [] := by
  rw [← List.append_nil (blanks count), skipsLayout_below?.blanks_append, below?]

theorem below?_block_append (indent count : Nat) (content : List Markup) :
    below? (block indent "ul".toList [] content ++ blanks count)
      = forest? (content ++ blanks indent) := by
  have hblanks : (Markup.char '\n' :: blanks count).all (fun markup => markup.char?.any isLayout)
      = true := by
    simp [blanks, char?, isLayout]
  rw [skipsLayout_below?.block_append, below?, if_pos ⟨rfl, rfl, hblanks⟩,
    skipsLayout_forest?.newline]

theorem forest?_block_append (indent : Nat) {content : List Markup} {tree : LabelTree}
    (h : tree? (content ++ blanks indent) = some tree) (rest : List Markup) :
    forest? (block indent "li".toList [] content ++ rest) = (forest? rest).map (tree :: ·) := by
  rw [skipsLayout_forest?.block_append, forest?, if_pos ⟨rfl, rfl⟩, skipsLayout_tree?.newline, h,
    skipsLayout_forest?.newline]
  rfl

theorem forest?_blanks (count : Nat) : forest? (blanks count) = some [] := by
  rw [← List.append_nil (blanks count), skipsLayout_forest?.blanks_append, forest?]

theorem named_append (name : Text) (content rest : List Markup) :
    named name (content ++ rest) = named name content ++ named name rest := by
  induction content with
  | nil => simp [named]
  | cons markup content ih => cases markup <;> simp [named, ih]

theorem named_map_char (name text : Text) : named name (text.map .char) = [] := by
  induction text with
  | nil => rw [List.map_nil, named]
  | cons c text ih => rw [List.map_cons, named, ih]

theorem named_block (name : Text) (indent : Nat) (name' : Text) (attributes : List (Text × Text))
    (content : List Markup) :
    named name (block indent name' attributes content)
      = (if name' = name then [(attributes, .char '\n' :: (content ++ blanks indent))] else [])
        ++ named name content := by
  have h := (skipsLayout_named name).block_append indent name' attributes content []
  rw [List.append_nil] at h
  rw [h, named, (skipsLayout_named name).newline, (skipsLayout_named name).newline, named_append,
    blanks, named_map_char]
  simp [named]

theorem named_labelMarkup_cons {name : Text} (hname : name ∈ ["ul".toList, "li".toList])
    (isParent : Bool) (label : Text) (rest : List Markup) :
    named name (labelMarkup isParent label :: rest) = named name rest := by
  have hne : "div".toList ≠ name ∧ "span".toList ≠ name ∧ "button".toList ≠ name := by
    revert name
    decide
  simp only [labelMarkup, labelContent, named, named_map_char, if_neg hne.1, if_neg hne.2.1,
    if_neg hne.2.2, List.append_nil, List.nil_append]

theorem named_item {name : Text} (hname : name ∈ ["ul".toList, "li".toList])
    (indent count : Nat) (isParent : Bool) (label : Text) (list : List Markup) :
    named name (block indent "li".toList []
        (blanks count ++ labelMarkup isParent label :: .char '\n' :: list))
      = (if "li".toList = name then
          [([], .char '\n' :: (blanks count ++ labelMarkup isParent label :: .char '\n' :: list
            ++ blanks indent))]
        else []) ++ named name list := by
  rw [named_block, (skipsLayout_named name).blanks_append, named_labelMarkup_cons hname,
    (skipsLayout_named name).newline]

theorem filter_isElement_block (indent : Nat) (name : Text) (attributes : List (Text × Text))
    (content : List Markup) :
    (block indent name attributes content).filter isElement
      = [.element name attributes (.char '\n' :: (content ++ blanks indent))] := by
  have h := skipsLayout_elements.block_append indent name attributes content []
  rw [List.append_nil] at h
  rw [h]
  rfl

theorem filter_isElement_blanks (count : Nat) : (blanks count).filter isElement = [] := by
  rw [← List.append_nil (blanks count), skipsLayout_elements.blanks_append, List.filter_nil]

theorem filter_isElement_item (indent count : Nat) (isParent : Bool) (label : Text)
    (list : List Markup) :
    (.char '\n' :: (blanks indent ++ labelMarkup isParent label :: .char '\n' :: list
        ++ blanks count)).filter isElement
      = labelMarkup isParent label :: list.filter isElement := by
  rw [skipsLayout_elements.newline, List.filter_append, skipsLayout_elements.blanks_append,
    filter_isElement_blanks, List.append_nil]
  rfl

theorem outline_append (content rest : List Markup) :
    outline (content ++ rest) = outline content ++ outline rest := by
  induction content with
  | nil => rw [List.nil_append, outline, List.nil_append]
  | cons markup content ih => cases markup <;> simp [outline, ih]

theorem outline_map_char (text : Text) : outline (text.map .char) = [] := by
  induction text with
  | nil => rw [List.map_nil, outline]
  | cons c text ih => rw [List.map_cons, outline, ih]

theorem outline_block (indent : Nat) (name : Text) (attributes : List (Text × Text))
    (content : List Markup) :
    outline (block indent name attributes content)
      = [.element name (attributes.map fun a => (a.1, outlineValue a.1 a.2))
        (outline content)] := by
  have h := skipsLayout_outline.block_append indent name attributes content []
  rw [List.append_nil] at h
  rw [h, outline, skipsLayout_outline.newline, skipsLayout_outline.newline, outline_append, blanks,
    outline_map_char, List.append_nil, outline]

theorem outline_item (indent count : Nat) (isParent : Bool) (label label' : Text)
    {list list' : List Markup} (h : outline list = outline list') :
    outline (block indent "li".toList []
        (blanks count ++ labelMarkup isParent label :: .char '\n' :: list))
      = outline (block indent "li".toList []
        (blanks count ++ labelMarkup isParent label' :: .char '\n' :: list')) := by
  have htitle : ∀ value : Text, outlineValue "title".toList value = [] := by
    intro value
    rw [outlineValue, if_pos rfl]
  rw [outline_block, outline_block, skipsLayout_outline.blanks_append,
    skipsLayout_outline.blanks_append]
  simp only [labelMarkup, labelContent, outline, outline_map_char, List.map_cons, List.map_nil,
    htitle, h]

end Markup

namespace LabelTree

open Markup

mutual

theorem forest?_itemMarkup_append (indent : Nat) (rest : List Markup) :
    ∀ tree : LabelTree, forest? (tree.itemMarkup indent ++ rest) = (forest? rest).map (tree :: ·)
  | .node label [] => by
    rw [itemMarkup]
    apply forest?_block_append
    apply tree?_of_below?
    apply below?_blanks
  | .node label (child :: children) => by
    rw [itemMarkup]
    apply forest?_block_append
    apply tree?_of_below?
    rw [below?_block_append, forest?_forestMarkup_append, forest?_blanks, Option.map_some,
      List.append_nil]

theorem forest?_forestMarkup_append (indent : Nat) (rest : List Markup) :
    ∀ trees : List LabelTree,
      forest? (forestMarkup indent trees ++ rest) = (forest? rest).map (trees ++ ·)
  | [] => by
    rw [forestMarkup, List.nil_append]
    simp
  | tree :: trees => by
    rw [forestMarkup, List.append_assoc, forest?_itemMarkup_append, forest?_forestMarkup_append,
      Option.map_map]
    rfl

end

theorem forest?_itemMarkup (indent count : Nat) (tree : LabelTree) :
    forest? (tree.itemMarkup indent ++ blanks count) = some [tree] := by
  rw [forest?_itemMarkup_append, forest?_blanks]
  rfl

theorem forest?_forestMarkup (indent count : Nat) (trees : List LabelTree) :
    forest? (forestMarkup indent trees ++ blanks count) = some trees := by
  rw [forest?_forestMarkup_append, forest?_blanks, Option.map_some, List.append_nil]

theorem roots?_rootsMarkup (trees : List LabelTree) : roots? (rootsMarkup trees) = some trees := by
  induction trees with
  | nil => rfl
  | cons tree trees ih =>
    rw [rootsMarkup, List.flatMap_cons, rootMarkup, skipsLayout_roots?.block_append, roots?,
      if_pos ⟨rfl, rfl⟩, skipsLayout_forest?.newline, forest?_itemMarkup,
      skipsLayout_roots?.newline, ← rootsMarkup, ih]
    rfl

mutual

def subtrees : LabelTree → List LabelTree
  | .node label children => .node label children :: forestSubtrees children

def forestSubtrees : List LabelTree → List LabelTree
  | [] => []
  | tree :: trees => tree.subtrees ++ forestSubtrees trees

end

mutual

def shape : LabelTree → LabelTree
  | .node _ children => .node [] (forestShapes children)

def forestShapes : List LabelTree → List LabelTree
  | [] => []
  | tree :: trees => tree.shape :: forestShapes trees

end

/--
An item shows a tree: it holds the label, which is marked if a list with trees follows right behind
it, and nothing else.
-/
def ShownBy (item : List (Text × Text) × List Markup) (tree : LabelTree) : Prop :=
  item.1 = [] ∧ tree? item.2 = some tree ∧
  match tree with
  | .node label [] => item.2.filter isElement = [labelMarkup false label]
  | .node label (child :: children) =>
    ∃ list, item.2.filter isElement = [labelMarkup true label, .element "ul".toList [] list]
      ∧ forest? list = some (child :: children)

mutual

theorem shownBy_itemMarkup (indent : Nat) :
    ∀ tree : LabelTree,
      List.Forall₂ ShownBy (named "li".toList (tree.itemMarkup indent)) tree.subtrees
  | .node label [] => by
    rw [itemMarkup, named_item (by simp), if_pos rfl, named, subtrees, forestSubtrees]
    refine .cons ⟨rfl, ?_, ?_⟩ .nil
    · rw [skipsLayout_tree?.newline]
      apply tree?_of_below?
      apply below?_blanks
    · apply filter_isElement_item
  | .node label (child :: children) => by
    rw [itemMarkup, named_item (by simp), if_pos rfl, named_block, if_neg (by decide), subtrees]
    -- The blanks in front of the closing tag belong to what the list holds.
    have hlist := forest?_forestMarkup (indent + 4) (indent + 2) (child :: children)
    refine .cons ⟨rfl, ?_, ?_⟩ (shownBy_forestMarkup _ _)
    · rw [skipsLayout_tree?.newline]
      apply tree?_of_below?
      rw [below?_block_append, hlist]
    · refine ⟨_, ?_, (skipsLayout_forest?.newline _).trans hlist⟩
      rw [filter_isElement_item, filter_isElement_block]
      rfl

theorem shownBy_forestMarkup (indent : Nat) :
    ∀ trees : List LabelTree,
      List.Forall₂ ShownBy (named "li".toList (forestMarkup indent trees)) (forestSubtrees trees)
  | [] => by
    rw [forestMarkup, named]
    apply List.Forall₂.nil
  | tree :: trees => by
    rw [forestMarkup, forestSubtrees, named_append]
    apply List.rel_append (shownBy_itemMarkup indent tree) (shownBy_forestMarkup indent trees)

end

mutual

theorem outline_itemMarkup (indent : Nat) :
    ∀ tree : LabelTree, outline (tree.itemMarkup indent) = outline (tree.shape.itemMarkup indent)
  | .node label [] => by
    rw [shape, forestShapes, itemMarkup, itemMarkup]
    apply outline_item
    rfl
  | .node label (child :: children) => by
    have hforest := outline_forestMarkup (indent + 4) (child :: children)
    rw [forestShapes] at hforest
    rw [shape, forestShapes, itemMarkup, itemMarkup]
    apply outline_item
    rw [outline_block, outline_block, hforest]

theorem outline_forestMarkup (indent : Nat) :
    ∀ trees : List LabelTree,
      outline (forestMarkup indent trees) = outline (forestMarkup indent (forestShapes trees))
  | [] => rfl
  | tree :: trees => by
    rw [forestShapes, forestMarkup, forestMarkup, outline_append, outline_append,
      outline_itemMarkup, outline_forestMarkup]

end

theorem outline_rootsMarkup (trees : List LabelTree) :
    outline (rootsMarkup trees) = outline (rootsMarkup (trees.map shape)) := by
  induction trees with
  | nil => rfl
  | cons tree trees ih =>
    rw [rootsMarkup, rootsMarkup, List.map_cons, List.flatMap_cons, List.flatMap_cons,
      outline_append, outline_append, ← rootsMarkup, ← rootsMarkup, ih, rootMarkup, rootMarkup,
      outline_block, outline_block, outline_itemMarkup]

theorem shownBy_rootsMarkup (trees : List LabelTree) :
    List.Forall₂ ShownBy (named "li".toList (rootsMarkup trees)) (trees.flatMap subtrees) := by
  induction trees with
  | nil =>
    rw [rootsMarkup, List.flatMap_nil, named]
    apply List.Forall₂.nil
  | cons tree trees ih =>
    rw [rootsMarkup, List.flatMap_cons, List.flatMap_cons, named_append, rootMarkup, named_block,
      if_neg (by decide)]
    apply List.rel_append (shownBy_itemMarkup 6 tree) ih

mutual

theorem attributes_named_itemMarkup (indent : Nat) :
    ∀ tree : LabelTree, ∀ list ∈ named "ul".toList (tree.itemMarkup indent), list.1 = []
  | .node label [] => by
    rw [itemMarkup, named_item (by simp), if_neg (by decide), named]
    rintro _ ⟨⟩
  | .node label (child :: children) => by
    rw [itemMarkup, named_item (by simp), if_neg (by decide), named_block, if_pos rfl,
      List.nil_append, List.singleton_append, List.forall_mem_cons]
    exact ⟨rfl, attributes_named_forestMarkup _ _⟩

theorem attributes_named_forestMarkup (indent : Nat) :
    ∀ trees : List LabelTree, ∀ list ∈ named "ul".toList (forestMarkup indent trees), list.1 = []
  | [] => by
    rw [forestMarkup, named]
    rintro _ ⟨⟩
  | tree :: trees => by
    rw [forestMarkup, named_append, List.forall_mem_append]
    exact ⟨attributes_named_itemMarkup indent tree, attributes_named_forestMarkup indent trees⟩

end

theorem rootLists_rootsMarkup (trees : List LabelTree) :
    List.Forall₂ (fun list tree => forest? list.2 = some [tree])
      ((named "ul".toList (rootsMarkup trees)).filter fun list => list.1 = rootAttributes)
      trees := by
  induction trees with
  | nil =>
    rw [rootsMarkup, List.flatMap_nil, named]
    apply List.Forall₂.nil
  | cons tree trees ih =>
    have hinner : (named "ul".toList (tree.itemMarkup 6)).filter
        (fun list => list.1 = rootAttributes) = [] := by
      rw [List.filter_eq_nil_iff]
      intro list hlist
      rw [attributes_named_itemMarkup 6 tree list hlist]
      decide
    rw [rootsMarkup, List.flatMap_cons, named_append, rootMarkup, named_block, if_pos rfl,
      List.filter_append, List.filter_append, hinner, List.append_nil, List.filter_cons,
      if_pos (by simp), List.filter_nil]
    refine .cons ?_ ih
    rw [skipsLayout_forest?.newline, forest?_itemMarkup]

end LabelTree

namespace Graph

open LabelTree Markup

def labelForest (g : Graph) (limit : DepthLimit) (roots : List Path) : List LabelTree :=
  roots.map fun root => (g.tree limit root).labels

theorem render_html_read (g : Graph) (limit : DepthLimit) (roots : List Path) :
    (∃ lists content,
      g.render .html limit roots
        = Text.unlines (Tree.pageOpening.map String.toList) ++ lists
          ++ '\n' :: Text.unlines (Tree.pageClosing.map String.toList)
      ∧ read? lists = some content
      ∧ roots? content = some (g.labelForest limit roots)
      ∧ List.Forall₂ (fun list tree => forest? list.2 = some [tree])
        ((named "ul".toList content).filter fun list => list.1 = rootAttributes)
        (g.labelForest limit roots)
      ∧ List.Forall₂ ShownBy (named "li".toList content)
        ((g.labelForest limit roots).flatMap subtrees)
      ∧ outline content = outline (rootsMarkup ((g.labelForest limit roots).map shape)))
      ∧ ∀ (g' : Graph) (limit' : DepthLimit) (roots' : List Path),
        g.render .html limit roots = g'.render .html limit' roots'
          ↔ g.labelForest limit roots = g'.labelForest limit' roots' := by
  have hrender : ∀ (g : Graph) (limit : DepthLimit) (roots : List Path),
      g.render .html limit roots
        = Text.unlines (Tree.pageOpening.map String.toList)
          ++ Text.unlines ((g.labelForest limit roots).flatMap rootList)
          ++ '\n' :: Text.unlines (Tree.pageClosing.map String.toList) := by
    intro g limit roots
    rw [render, Tree.htmlDocument, Tree.htmlLists, labelForest, List.flatMap_map, List.flatMap_map]
    simp only [Tree.rootListLines_eq_rootList_labels]
  have hread : ∀ trees : List LabelTree,
      read? (Text.unlines (trees.flatMap rootList)) = some (rootsMarkup trees) := by
    intro trees
    apply read?_of_spells
    apply spells_rootLists
  refine ⟨⟨_, _, hrender g limit roots, hread _, roots?_rootsMarkup _, rootLists_rootsMarkup _,
    shownBy_rootsMarkup _, outline_rootsMarkup _⟩, ?_⟩
  intro g' limit' roots'
  rw [hrender, hrender, List.append_cancel_right_eq, List.append_cancel_left_eq]
  constructor
  · intro heq
    have hmarkup := congrArg read? heq
    rw [hread, hread, Option.some.injEq] at hmarkup
    have htrees := congrArg roots? hmarkup
    rw [roots?_rootsMarkup, roots?_rootsMarkup] at htrees
    exact Option.some.inj htrees
  · intro heq
    rw [heq]

end Graph

end ComponentTree
