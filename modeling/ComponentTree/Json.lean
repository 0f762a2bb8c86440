import ComponentTree.Text.Basic

/-!
This module contains the JSON values that trees are printed as, and their printed form: two blanks
of indentation a level, a member or an element a line, and brackets that hold nothing closed at
once.
-/

namespace ComponentTree

inductive Json where
  | string (text : Text)
  | array (elements : List Json)
  | object (members : List (Text × Json))

namespace Json

def hexDigit (n : Nat) : Char :=
  "0123456789abcdef".toList.getD n '0'

def escapeChar (c : Char) : Text :=
  if c = '\x22' then ['\\', '\x22']
  else if c = '\\' then ['\\', '\\']
  else if c = '\x08' then ['\\', 'b']
  else if c = '\t' then ['\\', 't']
  else if c = '\n' then ['\\', 'n']
  else if c = '\x0c' then ['\\', 'f']
  else if c = '\r' then ['\\', 'r']
  else if c.toNat < 0x20 then
    ['\\', 'u', '0', '0', hexDigit (c.toNat / 16), hexDigit (c.toNat % 16)]
  else [c]

def quote (text : Text) : Text :=
  '\x22' :: text.flatMap escapeChar ++ ['\x22']

def newline (level : Nat) : Text :=
  '\n' :: List.replicate (2 * level) ' '

mutual

def pretty (level : Nat) : Json → Text
  | string text => quote text
  | array [] => ['[', ']']
  | array (element :: elements) =>
    '[' :: newline (level + 1) ++ element.pretty (level + 1) ++ prettyElements (level + 1) elements
      ++ newline level ++ [']']
  | object [] => ['\x7b', '\x7d']
  | object ((name, value) :: members) =>
    '\x7b' :: newline (level + 1) ++ quote name ++ [':', ' '] ++ value.pretty (level + 1)
      ++ prettyMembers (level + 1) members ++ newline level ++ ['\x7d']

def prettyElements (level : Nat) : List Json → Text
  | [] => []
  | element :: elements =>
    ',' :: newline level ++ element.pretty level ++ prettyElements level elements

def prettyMembers (level : Nat) : List (Text × Json) → Text
  | [] => []
  | (name, value) :: members =>
    ',' :: newline level ++ quote name ++ [':', ' '] ++ value.pretty level
      ++ prettyMembers level members

end

end Json

end ComponentTree
