import ComponentTree.Text.Basic
import ComponentTree.Text.Utf8

/-!
This module contains control characters and the sequences of characters by which a terminal is
steered, and how text is kept from steering one: the sequences are left out, or the characters that
start them are written as escapes.
-/

namespace ComponentTree.Text

def sequenceStart : Char := '\x1b'

inductive Medium where
  | text
  | stream
deriving DecidableEq

inductive TerminalState where
  | text
  | escape
  | shortSequence
  | controlSequence
  | stringStart
  | stringParameter
  | stringIntermediate
  | controlString
  | command
  | heldUp (state : TerminalState)
deriving DecidableEq

namespace TerminalState

def ofIntroducer (c : Char) : TerminalState :=
  match c with
  | '[' => controlSequence
  | ']' => command
  | 'P' => stringStart
  | 'X' | '^' | '_' => controlString
  | c => if c < '0' then shortSequence else text

def isLayout (c : Char) : Bool :=
  c = '\t' || c = '\n' || c = '\x0c' || c = '\r'

def isControl (c : Char) : Bool :=
  c < ' ' || c = '\x7f'

def isForeign (c : Char) : Bool :=
  c < ' ' || '\x7f' ≤ c

def closesString (c : Char) : Bool :=
  (Utf8.encode [c]).contains 0x9C

def inFrontOfString (state : TerminalState) (c : Char) : TerminalState :=
  if isForeign c then state
  else if c < '0' then stringIntermediate
  else if state = stringStart ∧ c < '@' then stringParameter
  else if state = stringParameter ∧ c < '<' then state
  else controlString

def step (medium : Medium) (state : TerminalState) (c : Char) : TerminalState × Bool :=
  if c = sequenceStart then (escape, false)
  else if c = '\x18' || c = '\x1a' then (text, false)
  else
    match state with
    | text => (text, isLayout c || !isControl c)
    | heldUp state =>
      if isControl c && !isLayout c then (state, false)
      else (if c ≤ '\x7f' then heldUp state else text, true)
    | stringStart | stringParameter | stringIntermediate => (state.inFrontOfString c, false)
    | controlString => (if closesString c then text else controlString, false)
    | command => (if c = '\x07' then text else command, false)
    | state =>
      -- A layout character ends a sequence in a text. On a stream the sequence goes on at the next
      -- control character.
      if isLayout c then (if medium = .stream then heldUp state else text, true)
      else if isForeign c then (state, false)
      else
        match state with
        | escape => (ofIntroducer c, false)
        | shortSequence => (if '0' ≤ c then text else shortSequence, false)
        | state => (if '@' ≤ c then text else state, false)

def shown (medium : Medium) (state : TerminalState) : Text → Text
  | [] => []
  | c :: rest =>
    let (state, isShown) := state.step medium c
    if isShown then c :: shown medium state rest else shown medium state rest

end TerminalState

def withoutControls (medium : Medium) (text : Text) : Text :=
  TerminalState.text.shown medium text

def disarmChar (c : Char) : Text :=
  match c with
  | '\x1b' => "\\x1b".toList
  | '\x07' => "\\x07".toList
  | '\x08' => "\\x08".toList
  | '\x0c' => "\\x0c".toList
  | '\x7f' => "\\x7f".toList
  | c =>
    if '\u0080' ≤ c ∧ c ≤ '\u009f' then ['\\', 'u', '\x7b'] ++ toDigits 16 c.toNat ++ ['\x7d']
    else [c]

def disarm (text : Text) : Text :=
  text.flatMap disarmChar

end ComponentTree.Text
