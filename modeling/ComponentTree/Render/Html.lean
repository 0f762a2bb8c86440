import ComponentTree.Render.Html.Page
import ComponentTree.Tree

/-!
This module contains the HTML document for trees: a list for each of them, whose items hold the
lists of the files below.
-/

namespace ComponentTree.Tree

def escapeHtmlChar (c : Char) : Text :=
  if c = '&' then "&amp;".toList
  else if c = '<' then "&lt;".toList
  else if c = '>' then "&gt;".toList
  else if c = '\x22' then "&quot;".toList
  else if c = '\x27' then "&#x27;".toList
  else if c = '/' then "&#x2F;".toList
  else [c]

def escapeHtml (text : Text) : Text :=
  text.flatMap escapeHtmlChar

def labelElement (isParent : Bool) (label : Text) : Text :=
  let label := escapeHtml label
  "<div class=\"".toList ++ (if isParent then "node parent".toList else "node".toList)
    ++ "\"><span class=\"toggle\"></span><span class=\"label\">".toList ++ label
    ++ "</span><button class=\"hide-btn\" title=\"Hide all '".toList ++ label
    ++ "'\">×</button></div>".toList

def itemIndent (depth : Nat) : Text :=
  List.replicate (4 * depth + 6) ' '

mutual

def itemLines (depth : Nat) : Tree → List Text
  | .node path children =>
    let indent := itemIndent depth
    let list :=
      match children with
      | [] => []
      | _ :: _ =>
        [indent ++ "  <ul>".toList] ++ forestItemLines (depth + 1) children
          ++ [indent ++ "  </ul>".toList]
    [indent ++ "<li>".toList, indent ++ "  ".toList ++ labelElement (!children.isEmpty) path.label]
      ++ list ++ [indent ++ "</li>".toList]

def forestItemLines (depth : Nat) : List Tree → List Text
  | [] => []
  | tree :: trees => tree.itemLines depth ++ forestItemLines depth trees

end

def rootListLines (tree : Tree) : List Text :=
  "    <ul class=\"tree-root\">".toList :: tree.itemLines 0 ++ ["    </ul>".toList]

def htmlLists (trees : List Tree) : Text :=
  Text.unlines (trees.flatMap rootListLines)

def htmlDocument (trees : List Tree) : Text :=
  -- The lists end their last line, and the page ends it again.
  Text.unlines (pageOpening.map String.toList) ++ htmlLists trees
    ++ '\n' :: Text.unlines (pageClosing.map String.toList)

end ComponentTree.Tree
