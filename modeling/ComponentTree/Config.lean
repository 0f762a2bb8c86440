import ComponentTree.Config.Mismatch
import ComponentTree.Failure
import ComponentTree.Path
import ComponentTree.Scan
import ComponentTree.Toml.Document

/-!
This module contains configurations and how they are read from a document. Every key may be missing.
Of several keys that are no good the first in the order of their names counts, wherever it stands.
-/

namespace ComponentTree

open Toml (Key Scalar Span Table Value)

structure Config where
  root? : Option Path := none
  output? : Option OutputFormat := none
  extension? : Option Text := none
  exclude? : Option (List Text) := none
  sorted? : Option Bool := none
  depth? : Option Nat := none
deriving DecidableEq

namespace Config

structure Objection where
  span : Span
  mismatch : Mismatch

abbrev Read := Except Objection

def refuse (value : Value) (wanted : Wanted) : Read α :=
  throw ⟨value.span, .ofValue wanted value⟩

def readText (wanted : Wanted) : Value → Read Text
  | .scalar _ (.string text) => return text
  | value => refuse value wanted

def readList : Value → Read (List Text)
  | .array _ _ items => items.mapM (readText .text)
  | value => refuse value .list

def readFlag : Value → Read Bool
  | .scalar _ (.boolean b) => return b
  | value => refuse value .flag

def readCount : Value → Read Nat
  | .scalar span (.integer (some n)) =>
    if fitsUnsigned 64 n then return n.toNat
    else if fitsSigned 64 n then throw ⟨span, .negativeCount n⟩
    else refuse (.scalar span (.integer (some n))) .count
  | value => refuse value .count

def formatOfName (span : Span) (name : Text) : Read OutputFormat :=
  match OutputFormat.ofName? (String.ofList name) with
  | some format => return format
  | none => throw ⟨span, .unknownFormat name⟩

/--
A format is given by its name, or by a table whose one key is its name and whose value is empty.
-/
def readFormat : Value → Read OutputFormat
  | .scalar span (.string name) => formatOfName span name
  | .table span _ [] => throw ⟨span, .outputEmpty⟩
  | .table _ _ [(key, value)] => do
    let format ← formatOfName key.span key.name
    match value with
    | .table _ _ [] | .array _ _ [] => return format
    | .scalar span s => throw ⟨span, .outputScalar s⟩
    | .array span _ _ => throw ⟨span, .outputFilled true⟩
    | .table span _ _ => throw ⟨span, .outputFilled false⟩
  | .table span _ _ => throw ⟨span, .outputAmbiguous⟩
  | value => throw ⟨value.span, .outputUnnamed⟩

def set (config : Config) (key : Key) (value : Value) : Read Config :=
  match String.ofList key.name with
  | "root" => do return { config with root? := some (Path.ofText (← readText .path value)) }
  | "output" => do return { config with output? := some (← readFormat value) }
  | "extension" => do return { config with extension? := some (← readText .text value) }
  | "exclude" => do return { config with exclude? := some (← readList value) }
  | "sorted" => do return { config with sorted? := some (← readFlag value) }
  | "depth" => do return { config with depth? := some (← readCount value) }
  | _ => throw ⟨key.span, .unknownKey key.name⟩

def ofTable (t : Table) : Read Config :=
  -- Keys are compared by the bytes of their names, not by their characters.
  let members := t.members.mergeSort fun a b =>
    Text.Utf8.encode a.1.name ≤ Text.Utf8.encode b.1.name
  members.foldlM (fun config (key, value) => config.set key value) {}

inductive Invalid where
  | document (flaw : Toml.Flaw)
  | table (objection : Objection)

namespace Invalid

def message : Invalid → String
  | document .malformed => "the text is no TOML document"
  | document (.duplicateKey _) => "duplicate key"
  | table objection => objection.mismatch.message

def span? : Invalid → Option Span
  | document .malformed => none
  | document (.duplicateKey span) => some span
  | table objection => some objection.span

def reason (invalid : Invalid) (document : Text) : String :=
  match invalid.span? with
  | some span =>
    let excerpt := Toml.Excerpt.ofSpan document span
    "TOML parse error at " ++ excerpt.position ++ "\n" ++ excerpt.drawing ++ invalid.message
  | none => "TOML parse error: " ++ invalid.message

def failure (invalid : Invalid) (source : Path) (document : Text) : Failure :=
  .configInvalid (String.ofList source.display) (invalid.reason document)

end Invalid

def ofText (document : Text) : Except Invalid Config :=
  match Table.ofDocument document with
  | .error flaw => throw (.document flaw)
  | .ok t =>
    match ofTable t with
    | .error objection => throw (.table objection)
    | .ok config => return config

def scanOptions (config : Config) : ScanOptions :=
  let defaults : ScanOptions := {}
  { extension := config.extension?.getD defaults.extension
    excluded := config.exclude?.getD defaults.excluded
    sorted := config.sorted?.getD defaults.sorted }

end Config

end ComponentTree
