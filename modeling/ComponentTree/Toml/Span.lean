import ComponentTree.Text.Utf8

/-!
This module contains places in a document, and the excerpt of a document that is shown for a stretch
of it.
-/

namespace ComponentTree.Toml

/--
A stretch of a document. A place is given by the number of characters from there to the end, which a
reader of the document knows without counting from the front.
-/
structure Span where
  start : Nat
  stop : Nat
deriving DecidableEq

def Span.between (before after : Text) : Span :=
  ⟨before.length, after.length⟩

structure Excerpt where
  line : Nat
  before : Nat
  content : Text
  marked : Nat
deriving DecidableEq

namespace Excerpt

def ofSpan (document : Text) (span : Span) : Excerpt :=
  let front := document.take (document.length - span.start)
  let stretch := (document.drop (document.length - span.start)).take (span.start - span.stop)
  let start := (front.reverse.takeWhile (· ≠ '\n')).reverse
  let content := start ++ (document.drop front.length).takeWhile (· ≠ '\n')
  let size (text : Text) : Nat := (Text.Utf8.encode text).length
  { line := front.count '\n' + 1
    before := start.length
    content
    marked := min (size stretch) (size content - start.length) }

def column (excerpt : Excerpt) : Nat :=
  excerpt.before + 1

def position (excerpt : Excerpt) : String :=
  "line " ++ toString excerpt.line ++ ", column " ++ toString excerpt.column

def drawing (excerpt : Excerpt) : String :=
  let number := toString excerpt.line
  let margin := String.ofList (List.replicate (number.length + 1) ' ')
  let mark := List.replicate (excerpt.before + 1) ' ' ++ List.replicate (max 1 excerpt.marked) '^'
  margin ++ "|\n" ++ number ++ " | " ++ String.ofList excerpt.content ++ "\n" ++ margin ++ "|"
    ++ String.ofList mark ++ "\n"

end Excerpt

end ComponentTree.Toml
