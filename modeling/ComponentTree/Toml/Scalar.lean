import ComponentTree.Decimal
import ComponentTree.Text.Basic
import ComponentTree.Toml.Statement

/-!
This module contains the scalars of a TOML document and how they are spelled: strings in quotes, and
numbers, truth values and moments without.
-/

namespace ComponentTree.Toml

inductive FloatLiteral where
  | finite (value : Decimal)
  | infinite (negative : Bool)
  | notANumber

inductive Scalar where
  | string (text : Text)
  | integer (value? : Option Int)
  | float (value : FloatLiteral)
  | boolean (value : Bool)
  | moment

/-! ### Strings -/

def shortEscape? (c : Char) : Option Char :=
  match c with
  | 'b' => some '\x08'
  | 't' => some '\t'
  | 'n' => some '\n'
  | 'f' => some '\x0c'
  | 'r' => some '\r'
  | 'e' => some '\x1b'
  | '\x22' => some '\x22'
  | '\\' => some '\\'
  | _ => none

def escapeWidth? (c : Char) : Option Nat :=
  match c with
  | 'x' => some 2
  | 'u' => some 4
  | 'U' => some 8
  | _ => none

def charOfDigits? (digits : Text) : Option Char :=
  (Text.ofDigits? 16 digits).bind fun code =>
    if code.isValidChar then some (Char.ofNat code) else none

def escape? : (text : Text) → Option (Char × Text)
  | [] => none
  | c :: text =>
    match escapeWidth? c with
    | none => (shortEscape? c).map (·, text)
    | some width =>
      if text.length < width then none
      else (charOfDigits? (text.take width)).map (·, text.drop width)

theorem length_lt_of_escape? {text rest : Text} {c : Char} (h : escape? text = some (c, rest)) :
    rest.length < text.length := by
  unfold escape? at h
  split at h
  next => simp at h
  next d text =>
    split at h
    next =>
      obtain ⟨_, _, hrest⟩ := Option.map_eq_some_iff.1 h
      simp only [Prod.mk.injEq] at hrest
      simp [← hrest.2]
    next width _ =>
      split at h
      next => simp at h
      next =>
        obtain ⟨_, _, hrest⟩ := Option.map_eq_some_iff.1 h
        simp only [Prod.mk.injEq] at hrest
        simp only [← hrest.2, List.length_drop, List.length_cons]
        omega

def skipBlankLines : (text : Text) → Text
  | '\r' :: '\n' :: text => skipBlankLines text
  | c :: text => if isInlineBlank c ∨ c = '\n' then skipBlankLines text else c :: text
  | [] => []

theorem length_skipBlankLines_le (text : Text) : (skipBlankLines text).length ≤ text.length := by
  fun_induction skipBlankLines text with
  | case1 text ih => simp only [List.length_cons]; omega
  | case2 c text _ _ ih => simp only [List.length_cons]; omega
  | case3 => simp
  | case4 => simp

def afterHiddenLineEnd? (text : Text) : Option Text :=
  match skipInlineBlanks text with
  | '\n' :: rest => some (skipBlankLines rest)
  | '\r' :: '\n' :: rest => some (skipBlankLines rest)
  | _ => none

theorem length_lt_of_afterHiddenLineEnd? {text rest : Text}
    (h : afterHiddenLineEnd? text = some rest) : rest.length < text.length := by
  have hle : (skipInlineBlanks text).length ≤ text.length :=
    (List.dropWhile_suffix _).sublist.length_le
  unfold afterHiddenLineEnd? at h
  split at h
  next rest' heq =>
    have := length_skipBlankLines_le rest'
    rw [heq, List.length_cons] at hle
    obtain rfl : skipBlankLines rest' = rest := by simpa using h
    omega
  next rest' heq =>
    have := length_skipBlankLines_le rest'
    rw [heq, List.length_cons, List.length_cons] at hle
    obtain rfl : skipBlankLines rest' = rest := by simpa using h
    omega
  next => simp at h

def basicText? : (body : Text) → Option Text
  | [] => some []
  | c :: body =>
    if c = '\\' then
      match h : escape? body with
      | none => none
      | some (c, rest) =>
        have := length_lt_of_escape? h
        (basicText? rest).map (c :: ·)
    else if isControl c then none
    else (basicText? body).map (c :: ·)
termination_by body => body.length

def basicBlockText? : (body : Text) → Option Text
  | [] => some []
  | '\n' :: body => (basicBlockText? body).map ('\n' :: ·)
  | '\r' :: '\n' :: body => (basicBlockText? body).map ('\r' :: '\n' :: ·)
  | c :: body =>
    if c = '\\' then
      match hline : afterHiddenLineEnd? body with
      | some rest =>
        have := length_lt_of_afterHiddenLineEnd? hline
        basicBlockText? rest
      | none =>
        match h : escape? body with
        | none => none
        | some (c, rest) =>
          have := length_lt_of_escape? h
          (basicBlockText? rest).map (c :: ·)
    else if isControl c then none
    else (basicBlockText? body).map (c :: ·)
termination_by body => body.length

def literalText? (body : Text) : Option Text :=
  if body.any isControl then none else some body

def literalBlockText? : (body : Text) → Option Text
  | [] => some []
  | '\n' :: body => (literalBlockText? body).map ('\n' :: ·)
  | '\r' :: '\n' :: body => (literalBlockText? body).map ('\r' :: '\n' :: ·)
  | c :: body => if isControl c then none else (literalBlockText? body).map (c :: ·)

def dropFirstLineEnd : (body : Text) → Text
  | '\n' :: body => body
  | '\r' :: '\n' :: body => body
  | body => body

def Lexeme.quotedText? (lexeme : Lexeme) : Option Text :=
  if !lexeme.isClosed then none
  else
    match lexeme.quoting with
    | .bare => none
    | .basic => basicText? lexeme.body
    | .literal => literalText? lexeme.body
    | .basicBlock => basicBlockText? (dropFirstLineEnd lexeme.body)
    | .literalBlock => literalBlockText? (dropFirstLineEnd lexeme.body)

def isBareKeyChar (c : Char) : Bool :=
  c.isAlphanum || c = '-' || c = '_'

def Lexeme.keyText? (lexeme : Lexeme) : Option Text :=
  match lexeme.quoting with
  | .bare => if lexeme.body ≠ [] ∧ lexeme.body.all isBareKeyChar then some lexeme.body else none
  | .basic | .literal => lexeme.quotedText?
  | .basicBlock | .literalBlock => none

/-! ### Numbers -/

def signed : (text : Text) → Bool × Text
  | '+' :: text => (false, text)
  | '-' :: text => (true, text)
  | text => (false, text)

def ungrouped? (isDigit : Char → Bool) (text : Text) : Option Text :=
  -- What stands between the first and the last character of a group is not looked at.
  let groups := text.splitOn '_'
  if groups.dropLast.all (·.getLast?.any isDigit) ∧ groups.tail.all (·.head?.any isDigit) then
    some groups.flatten
  else
    none

def hasIdleZero : (text : Text) → Bool
  | '0' :: c :: _ => c.isDigit || c = '_'
  | _ => false

def decimalValue? (text : Text) : Option Int :=
  let (negative, digits) := signed text
  (Text.ofDigits? 10 digits).map fun n => if negative then -n else n

def isIntegerDigit (c : Char) : Bool :=
  (Text.digit? 16 c).isSome

def baseInteger? (base : Nat) (text : Text) : Option Scalar :=
  if text.all fun c => c = '_' || (Text.digit? base c).isSome then
    (ungrouped? isIntegerDigit text).map fun digits =>
      .integer ((Text.ofDigits? base digits).map Int.ofNat)
  else
    none

/--
A decimal integer. After an underscore it is only looked at whether it could be anything else: if
not all is digits, the integer has no value.
-/
def decimalInteger? (text : Text) : Option Scalar :=
  let (_, unsigned) := signed text
  let tail := unsigned.dropWhile Char.isDigit
  if unsigned = [] ∨ hasIdleZero unsigned ∨ ¬ tail.head?.all (· = '_')
      ∨ tail.any (" .eE".toList.contains ·) then
    none
  else
    (ungrouped? isIntegerDigit text).map fun digits => .integer (decimalValue? digits)

def integer? : (text : Text) → Option Scalar
  | '0' :: 'x' :: text => baseInteger? 16 text
  | '0' :: 'o' :: text => baseInteger? 8 text
  | '0' :: 'b' :: text => baseInteger? 2 text
  | text => decimalInteger? text

def digits? (text : Text) : Option (Text × Text) :=
  match text.takeWhile Char.isDigit with
  | [] => none
  | digits => some (digits, text.dropWhile Char.isDigit)

def float? (text : Text) : Option FloatLiteral := do
  let (negative, unsigned) := signed text
  if unsigned = "inf".toList then return .infinite negative
  if unsigned = "nan".toList then return .notANumber
  if hasIdleZero unsigned then none
  let (_, plain) := signed (← ungrouped? Char.isDigit text)
  let (whole, rest) ← digits? plain
  let (fraction, rest) ←
    match rest with
    | '.' :: rest => digits? rest
    | rest => some ([], rest)
  let exponent ←
    match rest with
    | [] => if fraction = [] then none else some 0
    | c :: rest => if c = 'e' ∨ c = 'E' then decimalValue? rest else none
  return .finite ⟨negative, ← Text.ofDigits? 10 (whole ++ fraction), exponent - fraction.length⟩

/-! ### Moments -/

def fixedWidth? (width : Nat) (text : Text) : Option (Nat × Text) :=
  if text.length < width then none
  else (Text.ofDigits? 10 (text.take width)).map (·, text.drop width)

def daysInMonth (year month : Nat) : Nat :=
  let isLeap := year % 4 = 0 ∧ (year % 100 ≠ 0 ∨ year % 400 = 0)
  match month with
  | 2 => if isLeap then 29 else 28
  | 4 | 6 | 9 | 11 => 30
  | _ => 31

def afterDate? (text : Text) : Option Text := do
  let (year, text) ← fixedWidth? 4 text
  let (month, text) ← fixedWidth? 2 (← Text.after? ['-'] text)
  let (day, text) ← fixedWidth? 2 (← Text.after? ['-'] text)
  if 1 ≤ month ∧ month ≤ 12 ∧ 1 ≤ day ∧ day ≤ daysInMonth year month then some text else none

def afterFraction? : (text : Text) → Option Text
  | '.' :: text =>
    let rest := text.dropWhile Char.isDigit
    if rest.length < text.length then some rest else none
  | text => some text

def afterSeconds? : (text : Text) → Option Text
  | ':' :: text => do
    let (second, text) ← fixedWidth? 2 text
    if second ≤ 60 then afterFraction? text else none
  | text => some text

def afterMinutes? (text : Text) : Option Text := do
  let (hour, text) ← fixedWidth? 2 text
  let (minute, text) ← fixedWidth? 2 (← Text.after? [':'] text)
  if hour ≤ 23 ∧ minute ≤ 59 then some text else none

def afterTime? (text : Text) : Option Text :=
  (afterMinutes? text).bind afterSeconds?

def isOffset : (text : Text) → Bool
  | ['Z'] | ['z'] => true
  | '+' :: text | '-' :: text => afterMinutes? text = some []
  | _ => false

def isMoment (text : Text) : Bool :=
  match afterDate? text with
  | some [] => true
  | some (c :: text) =>
    (c = 'T' || c = 't' || c = ' ') && (afterTime? text).any fun rest => rest = [] || isOffset rest
  | none => afterTime? text = some []

/-! ### Scalars -/

def Scalar.ofBare? (body : Text) : Option Scalar :=
  if body = "true".toList then some (.boolean true)
  else if body = "false".toList then some (.boolean false)
  else
    integer? body <|> (float? body).map Scalar.float <|>
      if isMoment body then some .moment else none

def Scalar.ofLexeme? (lexeme : Lexeme) : Option Scalar :=
  match lexeme.quoting with
  | .bare => Scalar.ofBare? lexeme.body
  | _ => lexeme.quotedText?.map Scalar.string

end ComponentTree.Toml
