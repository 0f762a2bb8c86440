import ComponentTree.CommandLine.Option
import ComponentTree.Text.Control

/-!
This module contains the ways in which arguments are no command line, and the first line that is
told of each.
-/

namespace ComponentTree.CommandLine

inductive DepthFlaw where
  | empty
  | notDigits
  | tooLarge
deriving DecidableEq, Repr

def DepthFlaw.message : DepthFlaw → String
  | empty => "cannot parse integer from empty string"
  | notDigits => "invalid digit found in string"
  | tooLarge => "number too large to fit in target type"

inductive Refusal where
  | noTarget
  | noValue (label : String)
  | unknownFormat (value : Text)
  | badDepth (value : Text) (flaw : DepthFlaw)
  | exclusive (first second : Switch)
  | repeated (switch : Switch)
  | unknown (name : Text)
  | unneededValue (value : Text) (switch : Switch)
deriving DecidableEq, Repr

def wordText (medium : Text.Medium) (word : Text) : String :=
  String.ofList (word.withoutControls medium)

def Refusal.message (medium : Text.Medium) : Refusal → String
  | noTarget => "error: the following required arguments were not provided:"
  | noValue label => "error: a value is required for '" ++ label ++ "' but none was supplied"
  | unknownFormat value =>
    "error: invalid value '" ++ wordText medium value ++ "' for '" ++ (Switch.setting .output).label
      ++ "'"
  | badDepth value flaw =>
    "error: invalid value '" ++ wordText medium value ++ "' for '" ++ (Switch.setting .depth).label
      ++ "': " ++ flaw.message
  | exclusive first second =>
    "error: the argument '" ++ first.label ++ "' cannot be used with '" ++ second.label ++ "'"
  | repeated switch =>
    "error: the argument '" ++ switch.label ++ "' cannot be used multiple times"
  | unknown name => "error: unexpected argument '" ++ wordText medium name ++ "' found"
  | unneededValue value switch =>
    "error: unexpected value '" ++ wordText medium value ++ "' for '" ++ switch.label
      ++ "' found; no more were expected"

end ComponentTree.CommandLine
