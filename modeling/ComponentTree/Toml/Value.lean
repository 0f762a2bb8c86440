import ComponentTree.Toml.Scalar

/-!
This module contains the values of a TOML document and its tables, with the places that they came
from.
-/

namespace ComponentTree.Toml

structure Key where
  name : Text
  span : Span

inductive TableOrigin where
  | header
  | implied
  | dotted
  | inline
deriving DecidableEq

inductive Value where
  | scalar (span : Span) (scalar : Scalar)
  | array (span : Span) (ofHeaders : Bool) (items : List Value)
  | table (span : Span) (origin : TableOrigin) (members : List (Key × Value))

def Value.span : Value → Span
  | scalar span _ => span
  | array span _ _ => span
  | table span _ _ => span

structure Table where
  origin : TableOrigin
  members : List (Key × Value)

namespace Table

def empty (origin : TableOrigin) : Table := ⟨origin, []⟩

def toValue (t : Table) (span : Span) : Value :=
  .table span t.origin t.members

def find? (t : Table) (name : Text) : Option Value :=
  (t.members.find? (·.1.name = name)).map (·.2)

def insert (t : Table) (key : Key) (value : Value) : Table :=
  { t with members := t.members ++ [(key, value)] }

def replace (t : Table) (name : Text) (value : Value) : Table :=
  { t with members := t.members.map fun (k, v) => if k.name = name then (k, value) else (k, v) }

def erase (t : Table) (name : Text) : Table :=
  { t with members := t.members.filter (·.1.name ≠ name) }

end Table

end ComponentTree.Toml
