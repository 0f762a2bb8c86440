import ComponentTree.Text.Basic
import ComponentTree.Text.Lowercase.Table

/-!
This module contains the lowercasing of text by the rules of the Unicode standard. A capital has the
same small form wherever it stands, but for the Greek capital sigma, whose small form at the end of
a word is `ς`.
-/

namespace ComponentTree.Text

def CaseRun.image? (run : CaseRun) (code : Nat) : Option Nat :=
  if run.first ≤ code ∧ code ≤ run.last ∧ (code - run.first) % run.step = 0 then
    some (run.image + (code - run.first))
  else
    none

def smallLetter? : List CaseRun → (code : Nat) → Option Nat
  | [], _ => none
  | run :: runs, code =>
    if code < run.first then none else run.image? code <|> smallLetter? runs code

def lowercaseChar (c : Char) : Text :=
  -- The only capital whose small form is two characters.
  if c = 'İ' then ['i', '\u0307']
  else
    match smallLetter? lowercaseRuns c.toNat with
    | some code => [Char.ofNat code]
    | none => [c]

def isCased (c : Char) : Bool :=
  casedRanges.has c.toNat

def isCaseIgnorable (c : Char) : Bool :=
  caseIgnorableRanges.has c.toNat

def startsCased (text : Text) : Bool :=
  match text.dropWhile isCaseIgnorable with
  | [] => false
  | c :: _ => isCased c

/--
Lowercase `text`. A capital sigma ends a word if a cased letter stands before it and none after it,
where characters that are passed over do not count.
-/
def lowercase (text : Text) : Text :=
  go false text
where
  go (afterCased : Bool) : Text → Text
    | [] => []
    | c :: rest =>
      (if c = 'Σ' then [if afterCased && !startsCased rest then 'ς' else 'σ'] else lowercaseChar c)
        ++ go (if isCaseIgnorable c then afterCased else isCased c) rest

end ComponentTree.Text
