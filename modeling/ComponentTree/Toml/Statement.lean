import ComponentTree.Toml.Span

/-!
This module contains the statements of a TOML document as they are written: how keys, values and
lines are laid out, while keys and scalars are left undecoded. A document that is not laid out like
this has no statements at all. Keys and values that are missing have a place in the layout, and so
have strings that are not closed: it is for decoding to refuse them, in the order of the document.
-/

namespace ComponentTree.Toml

inductive Quoting where
  | bare
  | basic
  | literal
  | basicBlock
  | literalBlock
deriving DecidableEq

structure Lexeme where
  quoting : Quoting
  body : Text
  isClosed : Bool
  span : Span

def Lexeme.isMissing (lexeme : Lexeme) : Bool :=
  lexeme.quoting = .bare && lexeme.body = []

inductive RawValue where
  | scalar (lexeme : Lexeme)
  | array (span : Span) (items : List RawValue)
  | table (span : Span) (members : List (List Lexeme × RawValue))

def RawValue.span : RawValue → Span
  | scalar lexeme => lexeme.span
  | array span _ => span
  | table span _ => span

inductive Statement where
  | assignment (path : List Lexeme) (value : RawValue)
  | header (ofArray : Bool) (span : Span) (path : List Lexeme)

def isControl (c : Char) : Bool :=
  (c.toNat < 0x20 && c ≠ '\t') || c = '\x7f'

def isInlineBlank (c : Char) : Bool :=
  c = ' ' || c = '\t'

def skipInlineBlanks (text : Text) : Text :=
  text.dropWhile isInlineBlank

def skipFiller? (inComment : Bool) : (text : Text) → Option Text
  | [] => some []
  | '\n' :: text => skipFiller? false text
  | '\r' :: '\n' :: text => skipFiller? false text
  | c :: text =>
    if inComment then if isControl c then none else skipFiller? true text
    else if isInlineBlank c then skipFiller? false text
    else if c = '#' then skipFiller? true text
    else some (c :: text)

def afterLineEnd? : (text : Text) → Option Text
  | [] => some []
  | '\n' :: text => some text
  | '\r' :: '\n' :: text => some text
  | _ => none

def skipComment? : (text : Text) → Option Text
  | [] => some []
  | '\n' :: text => some ('\n' :: text)
  | '\r' :: '\n' :: text => some ('\r' :: '\n' :: text)
  | c :: text => if isControl c then none else skipComment? text

def afterStatement? (text : Text) : Option Text :=
  match skipInlineBlanks text with
  | '#' :: text => (skipComment? text).bind afterLineEnd?
  | text => afterLineEnd? text

structure Quoted where
  body : Text
  isClosed : Bool

def Quoted.cons (c : Char) (q : Quoted) : Quoted :=
  { q with body := c :: q.body }

def basicQuoted : (text : Text) → Quoted × Text
  | [] => (⟨[], false⟩, [])
  | '\x22' :: text => (⟨[], true⟩, text)
  | '\n' :: text => (⟨[], false⟩, '\n' :: text)
  | '\\' :: '\x22' :: text =>
    let (quoted, rest) := basicQuoted text
    ((quoted.cons '\x22').cons '\\', rest)
  | '\\' :: '\\' :: text =>
    let (quoted, rest) := basicQuoted text
    ((quoted.cons '\\').cons '\\', rest)
  | c :: text =>
    let (quoted, rest) := basicQuoted text
    (quoted.cons c, rest)

def literalQuoted : (text : Text) → Quoted × Text
  | [] => (⟨[], false⟩, [])
  | '\x27' :: text => (⟨[], true⟩, text)
  | '\n' :: text => (⟨[], false⟩, '\n' :: text)
  | c :: text =>
    let (quoted, rest) := literalQuoted text
    (quoted.cons c, rest)

def closeBlock (quote : Char) : (text : Text) → Text × Text
  | [] => ([], [])
  | c :: text =>
    if c ≠ quote then ([], c :: text)
    else
      match text with
      | [] => ([quote], [])
      | d :: text => if d ≠ quote then ([quote], d :: text) else ([quote, quote], text)

def blockQuoted (quote : Char) (escapes : Bool) : (text : Text) → Quoted × Text
  | [] => (⟨[], false⟩, [])
  | c :: text =>
    if c = quote ∧ [quote, quote] <+: text then
      -- Up to two more quotes after the three belong to the body.
      let (body, rest) := closeBlock quote (text.drop 2)
      (⟨body, true⟩, rest)
    else if c = '\\' ∧ escapes then
      match text with
      | [] => (⟨['\\'], false⟩, [])
      | d :: text =>
        let (quoted, rest) := blockQuoted quote escapes text
        ((quoted.cons d).cons '\\', rest)
    else
      let (quoted, rest) := blockQuoted quote escapes text
      (quoted.cons c, rest)

def quoted? (text : Text) : Option (Lexeme × Text) :=
  let finish (quoting : Quoting) (read : Quoted × Text) : Option (Lexeme × Text) :=
    some (⟨quoting, read.1.body, read.1.isClosed, .between text read.2⟩, read.2)
  match text with
  | '\x22' :: '\x22' :: '\x22' :: inner => finish .basicBlock (blockQuoted '\x22' true inner)
  | '\x27' :: '\x27' :: '\x27' :: inner => finish .literalBlock (blockQuoted '\x27' false inner)
  | '\x22' :: inner => finish .basic (basicQuoted inner)
  | '\x27' :: inner => finish .literal (literalQuoted inner)
  | _ => none

def endsBare (c : Char) : Bool :=
  "=,[]#\r\n".toList.contains c || c = '\x7b' || c = '\x7d' || isInlineBlank c

def endsBareKey (c : Char) : Bool :=
  endsBare c || c = '.'

def key (text : Text) : Lexeme × Text :=
  match quoted? text with
  | some read => read
  | none =>
    let rest := text.dropWhile (!endsBareKey ·)
    (⟨.bare, text.takeWhile (!endsBareKey ·), true, .between text rest⟩, rest)

def keyPath : (fuel : Nat) → (text : Text) → List Lexeme × Text
  | 0, text => ([], text)
  | fuel + 1, text =>
    let (first, rest) := key text
    match skipInlineBlanks rest with
    | '.' :: rest =>
      let (path, rest) := keyPath fuel (skipInlineBlanks rest)
      (first :: path, rest)
    | rest => ([first], rest)

def keys (text : Text) : List Lexeme × Text :=
  let (path, rest) := keyPath (text.length + 1) text
  (path, skipInlineBlanks rest)

def refusesKey (text : Text) : Bool :=
  text.head?.any fun c => ",[]".toList.contains c || c = '\x7b' || c = '\x7d'

def bareWord (inWord : Bool) : (text : Text) → Text × Text
  | [] => ([], [])
  | c :: text =>
    if endsBare c || (!inWord && (c = '\x22' || c = '\x27')) then ([], c :: text)
    else
      let (word, rest) := bareWord (c ≠ '.') text
      (c :: word, rest)

/--
The words without quotes at the front of `text`, with the blanks between them: a date and a time are
one value, and so is a text that lacks its quotes. A dot can start the first word only.
-/
def bareWords : (fuel : Nat) → (text : Text) → Text × Text
  | 0, text => ([], text)
  | fuel + 1, text =>
    let (word, rest) := bareWord false text
    let next := skipInlineBlanks rest
    if word = [] then ([], text)
    else if next.head? = some '.' then (word, rest)
    else
      let (words, rest') := bareWords fuel next
      if words = [] then (word, rest)
      else (word ++ rest.takeWhile isInlineBlank ++ words, rest')

def scalar? (text : Text) : Option (Lexeme × Text) :=
  match quoted? text with
  | some read => some read
  | none =>
    let (body, rest) := bareWords (text.length + 1) text
    if body = [] then none else some (⟨.bare, body, true, .between text rest⟩, rest)

def missing (text : Text) : RawValue :=
  .scalar ⟨.bare, [], true, .between text text⟩

def items? (value? : Text → Option (RawValue × Text)) :
    (fuel : Nat) → (text : Text) → Option (List RawValue × Text)
  | 0, _ => none
  | fuel + 1, text => do
    match ← skipFiller? false text with
    | ']' :: rest => some ([], rest)
    | text =>
      let (item, rest) ← value? text
      match ← skipFiller? false rest with
      | ',' :: rest =>
        let (items, rest) ← items? value? fuel rest
        some (item :: items, rest)
      | ']' :: rest => some ([item], rest)
      | _ => none

def member? (value? : Text → Option (RawValue × Text)) (text : Text) :
    Option ((List Lexeme × RawValue) × Text) :=
  if refusesKey text then none
  else do
    let (path, rest) := keys text
    let rest ← skipFiller? false rest
    let rest ←
      match rest with
      | '=' :: rest => skipFiller? false rest
      | '\x7d' :: _ => some rest
      | _ => none
    if rest.head? = some '\x7d' then some ((path, missing rest), rest)
    else (value? rest).map fun (value, rest) => ((path, value), rest)

def members? (value? : Text → Option (RawValue × Text)) :
    (fuel : Nat) → (text : Text) → Option (List (List Lexeme × RawValue) × Text)
  | 0, _ => none
  | fuel + 1, text => do
    match ← skipFiller? false text with
    | '\x7d' :: rest => some ([], rest)
    | text =>
      let (member, rest) ← member? value? text
      match ← skipFiller? false rest with
      | ',' :: rest =>
        let (members, rest) ← members? value? fuel rest
        some (member :: members, rest)
      | '\x7d' :: rest => some ([member], rest)
      | _ => none

def value? : (depth : Nat) → (text : Text) → Option (RawValue × Text)
  | depth, text =>
    match text, depth with
    | '[' :: inner, depth + 1 =>
      (items? (value? depth) (inner.length + 1) inner).map fun (items, rest) =>
        (.array (.between text rest) items, rest)
    | '\x7b' :: inner, depth + 1 =>
      (members? (value? depth) (inner.length + 1) inner).map fun (members, rest) =>
        (.table (.between text rest) members, rest)
    | text, _ => (scalar? text).map fun (lexeme, rest) => (.scalar lexeme, rest)

def maxDepth : Nat := 80

def assignment? (text : Text) : Option (Statement × Text) :=
  if refusesKey text then none
  else
    match keys text with
    | (path, '=' :: rest) =>
      let rest := skipInlineBlanks rest
      if rest.head?.all ("#\r\n".toList.contains ·) then
        some (.assignment path (missing rest), rest)
      else
        (value? maxDepth rest).map fun (value, rest) => (.assignment path value, rest)
    | _ => none

/--
The next line after a place from which on nothing is looked at but comments. Strings are passed over
as such, so that a block does not end with its line.
-/
def skipLine? : (fuel : Nat) → (text : Text) → Option Text
  | 0, _ => none
  | fuel + 1, text =>
    match quoted? text with
    | some (_, rest) => skipLine? fuel rest
    | none =>
      match text with
      | '#' :: text => (skipComment? text).bind afterLineEnd?
      | c :: text =>
        if c = '\r' ∨ c = '\n' then afterLineEnd? (c :: text)
        else if endsBareKey c then skipLine? fuel text
        else skipLine? fuel (text.dropWhile (!endsBareKey ·))
      | [] => some []

def header? (ofArray : Bool) (text inner : Text) : Option (Statement × Text) :=
  let closing := if ofArray then [']', ']'] else [']']
  let (path, rest) := keys (skipInlineBlanks inner)
  if rest.head? = some ']' then
    (Text.after? closing rest).bind fun rest =>
      (afterStatement? rest).map (.header ofArray (.between text rest) path, ·)
  -- A header whose last key is missing need not be closed, and what follows in its line is skipped.
  else if path.getLast?.any Lexeme.isMissing then
    (skipLine? (rest.length + 1) rest).map (.header ofArray (.between text rest) path, ·)
  else none

def statement? (text : Text) : Option (Statement × Text) :=
  match text with
  | '[' :: '[' :: inner => header? true text inner
  | '[' :: inner => header? false text inner
  | text => do
    let (statement, rest) ← assignment? text
    return (statement, ← afterStatement? rest)

def statements? : (fuel : Nat) → (text : Text) → Option (List Statement)
  | 0, _ => none
  | fuel + 1, text => do
    match ← skipFiller? false text with
    | [] => some []
    | text =>
      let (statement, rest) ← statement? text
      return statement :: (← statements? fuel rest)

def Statement.ofDocument? (document : Text) : Option (List Statement) :=
  let text :=
    match document with
    | '\uFEFF' :: text => text
    | text => text
  statements? (text.length + 1) text

end ComponentTree.Toml
