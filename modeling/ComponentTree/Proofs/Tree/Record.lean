import ComponentTree.Proofs.Json.Reading
import ComponentTree.Render

/-!
This module contains what a JSON document tells of the files in it, and that it tells this of the
trees it was printed for, whatever their labels and paths are spelled with.
-/

namespace ComponentTree

inductive FileRecord where
  | node (name path : Text) (dependencies : List FileRecord)

namespace Tree

mutual

def record : Tree → FileRecord
  | .node path children => .node path.label path.display (forestRecords children)

def forestRecords : List Tree → List FileRecord
  | [] => []
  | tree :: trees => tree.record :: forestRecords trees

end

theorem forestRecords_eq_map (trees : List Tree) : forestRecords trees = trees.map record := by
  induction trees with
  | nil => rfl
  | cons tree trees ih => rw [forestRecords, ih, List.map_cons]

end Tree

namespace FileRecord

mutual

def ofJson? : Json → Option FileRecord
  | .object [(nameKey, .string name), (pathKey, .string path), (filesKey, .array files)] =>
    if nameKey = "name".toList ∧ pathKey = "path".toList ∧ filesKey = "dependencies".toList then
      (forestOfJson? files).map (.node name path)
    else none
  | _ => none

def forestOfJson? : List Json → Option (List FileRecord)
  | [] => some []
  | value :: values =>
    (ofJson? value).bind fun record => (forestOfJson? values).map (record :: ·)

end

def ofDocument? : Json → Option (List FileRecord)
  | .object [(key, .array roots)] => if key = "roots".toList then forestOfJson? roots else none
  | _ => none

mutual

def toJson : FileRecord → Json
  | .node name path files =>
    .object [("name".toList, .string name), ("path".toList, .string path),
      ("dependencies".toList, .array (forestToJson files))]

def forestToJson : List FileRecord → List Json
  | [] => []
  | record :: records => record.toJson :: forestToJson records

end

def document (records : List FileRecord) : Json :=
  .object [("roots".toList, .array (forestToJson records))]

mutual

theorem ofJson?_toJson : ∀ record : FileRecord, ofJson? record.toJson = some record
  | .node name path files => by
    rw [toJson, ofJson?, if_pos (by simp), forestOfJson?_forestToJson]
    rfl

theorem forestOfJson?_forestToJson :
    ∀ records : List FileRecord, forestOfJson? (forestToJson records) = some records
  | [] => rfl
  | record :: records => by
    rw [forestToJson, forestOfJson?, ofJson?_toJson, forestOfJson?_forestToJson]
    rfl

end

theorem ofDocument?_document (records : List FileRecord) :
    ofDocument? (document records) = some records := by
  rw [document, ofDocument?, if_pos rfl, forestOfJson?_forestToJson]

theorem getLast?_pretty_document (records : List FileRecord) :
    ((document records).pretty 0).getLast? = some '\x7d' := by
  rw [document, Json.pretty, List.getLast?_append]
  rfl

mutual

theorem toJson_record : ∀ tree : Tree, tree.record.toJson = tree.toJson
  | .node path children => by
    rw [Tree.record, Tree.toJson, toJson, forestToJson_forestRecords]

theorem forestToJson_forestRecords :
    ∀ trees : List Tree, forestToJson (Tree.forestRecords trees) = Tree.forestToJson trees
  | [] => rfl
  | tree :: trees => by
    rw [Tree.forestRecords, Tree.forestToJson, forestToJson, toJson_record,
      forestToJson_forestRecords]

end

end FileRecord

namespace Graph

theorem render_json_read (g : Graph) (limit : DepthLimit) (roots : List Path) :
    (∃ document, g.render .json limit roots = document ++ ['\n']
      ∧ document.head? = some '\x7b' ∧ document.getLast? = some '\x7d'
      ∧ (Json.read? document).bind FileRecord.ofDocument?
        = some (roots.map fun root => (g.tree limit root).record))
      ∧ ∀ (g' : Graph) (limit' : DepthLimit) (roots' : List Path),
        g.render .json limit roots = g'.render .json limit' roots'
          ↔ roots.map (fun root => (g.tree limit root).record)
            = roots'.map fun root => (g'.tree limit' root).record := by
  have hrender : ∀ (g : Graph) (limit : DepthLimit) (roots : List Path),
      g.render .json limit roots
        = (FileRecord.document (roots.map fun root => (g.tree limit root).record)).pretty 0
          ++ ['\n'] := by
    intro g limit roots
    rw [render, Tree.jsonDocument, FileRecord.document, ← FileRecord.forestToJson_forestRecords,
      Tree.forestRecords_eq_map, List.map_map]
    rfl
  have hread : ∀ records : List FileRecord,
      (Json.read? ((FileRecord.document records).pretty 0)).bind FileRecord.ofDocument?
        = some records := by
    intro records
    rw [Json.read?_pretty, Option.bind_some, FileRecord.ofDocument?_document]
  refine ⟨⟨_, hrender g limit roots, rfl, FileRecord.getLast?_pretty_document _, hread _⟩, ?_⟩
  intro g' limit' roots'
  rw [hrender, hrender, List.append_cancel_right_eq]
  constructor
  · intro heq
    have hrecords := congrArg (fun text => (Json.read? text).bind FileRecord.ofDocument?) heq
    simp only [hread] at hrecords
    exact Option.some.inj hrecords
  · intro heq
    rw [heq]

end Graph

end ComponentTree
