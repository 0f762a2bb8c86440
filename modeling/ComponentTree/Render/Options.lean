/-!
This module contains what is told of how trees are printed: the format, and how many levels.
-/

namespace ComponentTree

inductive OutputFormat where
  | ascii
  | html
  | json
deriving DecidableEq, Repr

namespace OutputFormat

def all : List OutputFormat := [ascii, html, json]

def name : OutputFormat → String
  | ascii => "ascii"
  | html => "html"
  | json => "json"

def ofName? (name : String) : Option OutputFormat :=
  all.find? (·.name = name)

def ofNameIgnoringCase? (name : String) : Option OutputFormat :=
  ofName? (String.ofList (name.toList.map Char.toLower))

end OutputFormat

structure DepthLimit where
  levels? : Option Nat
deriving DecidableEq

namespace DepthLimit

def unlimited : DepthLimit := ⟨none⟩

def allows (limit : DepthLimit) (depth : Nat) : Bool :=
  limit.levels?.all (depth ≤ ·)

end DepthLimit

end ComponentTree
