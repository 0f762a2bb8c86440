import ComponentTree.Text.Blank
import ComponentTree.Text.Lowercase

/-!
This module contains the names under which a source refers to components, and the references of a
source: the names in its named imports, `import { Foo, Bar as Baz } from './x'`, and the tags by
which it uses components, `<FooBar>` or `<foo-bar>`. Nothing else of the source is understood.
-/

namespace ComponentTree

/-! ### Names -/

abbrev Name := Text

namespace Name

def hyphenate (name : Name) : Name :=
  go false name
where
  go (afterSmall : Bool) : Text → Text
    | [] => []
    | c :: rest =>
      if afterSmall && c.isUpper then '-' :: c :: go c.isLower rest else c :: go c.isLower rest

def kebab (name : Name) : Name :=
  Text.lowercase name.hyphenate

def plain (name : Name) : Name :=
  Text.lowercase name

def isCarriedBy (name : Name) (stem : Text) : Bool :=
  stem = name.kebab || stem = name.plain

end Name

namespace Source

open Text

/-! ### Named imports -/

def isQuote (c : Char) : Bool :=
  c = '\x27' || c = '\x22'

def statement? (text : Text) : Option (Text × Text) := do
  let text ← after? "import".toList text
  let text ← afterBlanks? text
  let text ← after? ['\x7b'] text
  let (items, text) ← upTo? (· = '\x7d') text
  let text ← afterBlanks? text
  let text ← after? "from".toList text
  let text ← afterBlanks? text
  match text with
  | [] => none
  | quote :: text =>
    if isQuote quote then
      let (_, rest) ← upTo? isQuote text
      some (items, rest)
    else
      none

theorem length_lt_of_statement? {text items rest : Text}
    (h : statement? text = some (items, rest)) :
    rest.length < text.length := by
  simp only [statement?, Option.bind_eq_bind, Option.bind_eq_some_iff] at h
  obtain ⟨t₁, h₁, t₂, h₂, t₃, h₃, ⟨items', t₄⟩, h₄, t₅, h₅, t₆, h₆, t₇, h₇, h⟩ := h
  rw [after?_eq_some_iff] at h₁ h₃ h₆
  obtain ⟨_, _, _, h₂⟩ := afterBlanks?_eq_some h₂
  obtain ⟨_, _, _, _, h₄⟩ := upTo?_eq_some h₄
  obtain ⟨_, _, _, h₅⟩ := afterBlanks?_eq_some h₅
  obtain ⟨_, _, _, h₇⟩ := afterBlanks?_eq_some h₇
  cases t₇ with
  | nil => simp at h
  | cons quote t₈ =>
    dsimp only at h
    split at h
    · simp only [Option.bind_eq_some_iff, Prod.exists, Option.some.injEq, Prod.mk.injEq] at h
      obtain ⟨_, t₉, h₉, _, rfl⟩ := h
      obtain ⟨_, _, _, _, h₉⟩ := upTo?_eq_some h₉
      subst h₁ h₂ h₃ h₄ h₅ h₆ h₇ h₉
      simp
      omega
    · simp at h

/--
What stands between the braces of each named import of a text, from left to right. The search goes
on where a statement ended, and at the next character where none starts.
-/
def itemLists : (text : Text) → List Text
  | [] => []
  | c :: text =>
    match h : statement? (c :: text) with
    | some (items, rest) =>
      have : rest.length < text.length + 1 := length_lt_of_statement? h
      items :: itemLists rest
    | none => itemLists text
termination_by text => text.length

def startsAlias (text : Text) : Bool :=
  ((afterBlanks? text).bind (after? "as".toList)).any fun rest => rest.head?.any isBlank

def cutAlias : (item : Text) → Text
  | [] => []
  | c :: item => if startsAlias (c :: item) then [] else c :: cutAlias item

def itemName? (item : Text) : Option Name :=
  match (cutAlias item.trim).trim with
  | [] => none
  | name => some name

def importedNames (source : Text) : List Name :=
  (itemLists source).flatMap fun items => (items.splitOn ',').filterMap itemName?

/-! ### Component tags -/

def isTagChar (c : Char) : Bool :=
  c.isAlphanum || c = '-'

def isComponentTag (tag : Name) : Bool :=
  tag.contains '-' || tag.head?.any Char.isUpper

def openingTags : (text : Text) → List Name
  | [] => []
  | '<' :: c :: text =>
    if c.isAlpha then
      (c :: text.takeWhile isTagChar) :: openingTags (text.dropWhile isTagChar)
    else
      openingTags (c :: text)
  | _ :: text => openingTags text
termination_by text => text.length
decreasing_by
  · have := (List.dropWhile_sublist isTagChar (l := text)).length_le
    simp only [List.length_cons]
    omega
  · simp
  · simp

def componentTags (source : Text) : List Name :=
  ((openingTags source).filter isComponentTag).eraseDups

end Source

structure References where
  imports : List Name
  tags : List Name
deriving DecidableEq

namespace References

def names (references : References) : List Name :=
  references.imports ++ references.tags

def ofSource (source : Text) : References where
  imports := Source.importedNames source
  tags := Source.componentTags source

end References

end ComponentTree
