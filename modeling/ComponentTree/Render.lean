import ComponentTree.Json
import ComponentTree.Render.Html

/-!
This module contains the printing of a graph from its roots, in each of the formats: as box
drawings, which have a line for each file with its label behind the branches that lead to it, as a
page, or as a JSON object whose one member lists the trees.
-/

namespace ComponentTree

namespace Tree

/-! ### The box drawing -/

def branch (last : Bool) : Text :=
  if last then "└── ".toList else "├── ".toList

def belowBranch (last : Bool) : Text :=
  if last then "    ".toList else "│   ".toList

mutual

def branchLines (indent : Text) (last : Bool) : Tree → List Text
  | .node path children =>
    (indent ++ branch last ++ path.label) :: forestLines (indent ++ belowBranch last) children

def forestLines (indent : Text) : List Tree → List Text
  | [] => []
  | tree :: trees => tree.branchLines indent trees.isEmpty ++ forestLines indent trees

end

def drawingLines (tree : Tree) : List Text :=
  tree.path.label :: forestLines [] tree.children

def drawing (tree : Tree) : Text :=
  Text.unlines tree.drawingLines

/-! ### The JSON document -/

mutual

def toJson : Tree → Json
  | .node path children =>
    .object [("name".toList, .string path.label), ("path".toList, .string path.display),
      ("dependencies".toList, .array (forestToJson children))]

def forestToJson : List Tree → List Json
  | [] => []
  | tree :: trees => tree.toJson :: forestToJson trees

end

def jsonDocument (trees : List Tree) : Text :=
  (Json.object [("roots".toList, .array (forestToJson trees))]).pretty 0 ++ ['\n']

end Tree

def Graph.render (g : Graph) (format : OutputFormat) (limit : DepthLimit) (roots : List Path) : Text :=
  let trees := roots.map (g.tree limit)
  match format with
  | .ascii => trees.flatMap Tree.drawing
  | .html => Tree.htmlDocument trees
  | .json => Tree.jsonDocument trees

end ComponentTree
