import ComponentTree.Json
import ComponentTree.Proofs.Text.Basic
import ComponentTree.Text.Basic

/-!
This module contains the reading of JSON text: it is taken apart into tokens, with all escapes that
a string may hold, and the tokens are put together to a value. White space may stand between any two
tokens. What is read from the printed form of a value is that value.
-/

namespace ComponentTree.Json

inductive Token where
  | openArray
  | closeArray
  | openObject
  | closeObject
  | comma
  | colon
  | string (text : Text)
deriving DecidableEq

def Token.ofChar? (c : Char) : Option Token :=
  match c with
  | '[' => some openArray
  | ']' => some closeArray
  | '\x7b' => some openObject
  | '\x7d' => some closeObject
  | ',' => some comma
  | ':' => some colon
  | _ => none

def isSpace (c : Char) : Bool :=
  c = ' ' || c = '\t' || c = '\n' || c = '\r'

def shortEscape? (c : Char) : Option Char :=
  match c with
  | '\x22' => some '\x22'
  | '\\' => some '\\'
  | '/' => some '/'
  | 'b' => some '\x08'
  | 'f' => some '\x0c'
  | 'n' => some '\n'
  | 'r' => some '\r'
  | 't' => some '\t'
  | _ => none

def codeUnit? : (text : Text) → Option (Nat × Text)
  | a :: b :: c :: d :: rest => (Text.ofDigits? 16 [a, b, c, d]).map (·, rest)
  | _ => none

def ofSurrogates? (high low : Nat) : Option Char :=
  if 0xD800 ≤ high ∧ high < 0xDC00 ∧ 0xDC00 ≤ low ∧ low < 0xE000 then
    some (Char.ofNat (0x10000 + (high - 0xD800) * 0x400 + (low - 0xDC00)))
  else none

def escape? (text : Text) : Option (Char × Text) :=
  match text with
  | [] => none
  | 'u' :: text =>
    match codeUnit? text with
    | none => none
    | some (unit, rest) =>
      if unit.isValidChar then some (Char.ofNat unit, rest)
      else
        match (Text.after? ['\\', 'u'] rest).bind codeUnit? with
        | none => none
        | some (low, rest) => (ofSurrogates? unit low).map (·, rest)
  | c :: text => (shortEscape? c).map (·, text)

theorem length_lt_of_codeUnit? {text rest : Text} {unit : Nat}
    (h : codeUnit? text = some (unit, rest)) : rest.length < text.length := by
  unfold codeUnit? at h
  split at h
  next =>
    simp only [Option.map_eq_some_iff, Prod.mk.injEq] at h
    rcases h with ⟨_, _, _, rfl⟩
    simp only [List.length_cons]
    omega
  next => simp at h

theorem length_lt_of_escape? {text rest : Text} {c : Char} (h : escape? text = some (c, rest)) :
    rest.length < text.length := by
  unfold escape? at h
  split at h
  next => simp at h
  next text =>
    split at h
    next => simp at h
    next unit rest' hunit =>
      have := length_lt_of_codeUnit? hunit
      split at h
      next =>
        cases h
        rw [List.length_cons]
        omega
      next =>
        split at h
        next => simp at h
        next low rest'' hlow =>
          simp only [Option.map_eq_some_iff, Prod.mk.injEq] at h
          rcases h with ⟨_, _, _, rfl⟩
          rcases Option.bind_eq_some_iff.1 hlow with ⟨text', hafter, hlow⟩
          have := length_lt_of_codeUnit? hlow
          rw [Text.after?_eq_some_iff] at hafter
          subst hafter
          simp only [List.length_cons, List.length_append] at *
          omega
  next =>
    simp only [Option.map_eq_some_iff, Prod.mk.injEq] at h
    rcases h with ⟨_, _, _, rfl⟩
    simp

def characters? : (text : Text) → Option (Text × Text)
  | [] => none
  | c :: text =>
    if c = '\x22' then some ([], text)
    else if c = '\\' then
      match h : escape? text with
      | none => none
      | some (c, rest) =>
        have := length_lt_of_escape? h
        (characters? rest).map fun (chars, rest) => (c :: chars, rest)
    else if c.toNat < 0x20 then none
    else (characters? text).map fun (chars, rest) => (c :: chars, rest)
termination_by text => text.length

theorem length_lt_of_characters? {text chars rest : Text}
    (h : characters? text = some (chars, rest)) : rest.length < text.length := by
  fun_induction characters? text generalizing chars rest with
  | case1 => simp at h
  | case2 text =>
    cases h
    simp
  | case3 => simp at h
  | case4 text _ c rest' hescape hlt ih =>
    simp only [Option.map_eq_some_iff, Prod.exists, Prod.mk.injEq] at h
    rcases h with ⟨_, _, hchars, _, rfl⟩
    have := ih hchars
    rw [List.length_cons]
    omega
  | case5 => simp at h
  | case6 c text _ _ _ ih =>
    simp only [Option.map_eq_some_iff, Prod.exists, Prod.mk.injEq] at h
    rcases h with ⟨_, _, hchars, _, rfl⟩
    have := ih hchars
    rw [List.length_cons]
    omega

def tokens? : (text : Text) → Option (List Token)
  | [] => some []
  | c :: text =>
    if isSpace c then tokens? text
    else if c = '\x22' then
      match h : characters? text with
      | none => none
      | some (chars, rest) =>
        have := length_lt_of_characters? h
        (tokens? rest).map (.string chars :: ·)
    else (Token.ofChar? c).bind fun token => (tokens? text).map (token :: ·)
termination_by text => text.length

inductive Open where
  | array (elements : List Json)
  | object (members : List (Text × Json)) (name : Text)

mutual

def value? (outer : List Open) : List Token → Option Json
  | .string text :: rest => afterValue? outer (.string text) rest
  | .openArray :: .closeArray :: rest => afterValue? outer (.array []) rest
  | .openArray :: rest => value? (.array [] :: outer) rest
  | .openObject :: .closeObject :: rest => afterValue? outer (.object []) rest
  | .openObject :: .string name :: .colon :: rest => value? (.object [] name :: outer) rest
  | _ => none

def afterValue? (outer : List Open) (value : Json) (rest : List Token) : Option Json :=
  match outer, rest with
  | [], [] => some value
  | .array elements :: outer, .comma :: rest => value? (.array (value :: elements) :: outer) rest
  | .array elements :: outer, .closeArray :: rest =>
    afterValue? outer (.array (value :: elements).reverse) rest
  | .object members name :: outer, .comma :: .string next :: .colon :: rest =>
    value? (.object ((name, value) :: members) next :: outer) rest
  | .object members name :: outer, .closeObject :: rest =>
    afterValue? outer (.object ((name, value) :: members).reverse) rest
  | _, _ => none

end

def read? (text : Text) : Option Json :=
  (tokens? text).bind (value? [])

section Strings

variable {text rest : Text} {c : Char}

theorem characters?_of_escape? (h : escape? text = some (c, rest)) :
    characters? ('\\' :: text)
      = (characters? rest).map fun (chars, rest) => (c :: chars, rest) := by
  rw [characters?]
  simp only [Char.reduceEq, ↓reduceIte]
  split
  next hnone => rw [h] at hnone; cases hnone
  next hsome => rw [h] at hsome; cases hsome; rfl

theorem characters?_of_plain (hquote : c ≠ '\x22') (hbackslash : c ≠ '\\')
    (hspace : 0x20 ≤ c.toNat) :
    characters? (c :: text) = (characters? text).map fun (chars, rest) => (c :: chars, rest) := by
  rw [characters?, if_neg hquote, if_neg hbackslash, if_neg (Nat.not_lt.2 hspace)]

theorem ofDigits?_hexDigit {n : Nat} (h : n < 0x20) :
    Text.ofDigits? 16 ['0', '0', hexDigit (n / 16), hexDigit (n % 16)] = some n := by
  revert n
  decide

theorem escape?_hexDigit (h : c.toNat < 0x20) :
    escape? ('u' :: '0' :: '0' :: hexDigit (c.toNat / 16) :: hexDigit (c.toNat % 16) :: text)
      = some (c, text) := by
  have hvalid : c.toNat.isValidChar := .inl (by omega)
  simp only [escape?, codeUnit?, ofDigits?_hexDigit h, Option.map_some, hvalid, ↓reduceIte,
    Char.ofNat_toNat]

theorem characters?_escapeChar_append (c : Char) (text : Text) :
    characters? (escapeChar c ++ text)
      = (characters? text).map fun (chars, rest) => (c :: chars, rest) := by
  unfold escapeChar
  split
  next h => subst h; apply characters?_of_escape?; rfl
  next hquote =>
  split
  next h => subst h; apply characters?_of_escape?; rfl
  next hbackslash =>
  iterate 5
    split
    next h => subst h; apply characters?_of_escape?; rfl
  split
  next h => apply characters?_of_escape?; apply escape?_hexDigit h
  next h => apply characters?_of_plain hquote hbackslash; omega

theorem characters?_quoted (chars rest : Text) :
    characters? (chars.flatMap escapeChar ++ '\x22' :: rest) = some (chars, rest) := by
  induction chars with
  | nil =>
    rw [List.flatMap_nil, List.nil_append, characters?]
    rfl
  | cons c chars ih =>
    rw [List.flatMap_cons, List.append_assoc, characters?_escapeChar_append, ih]
    rfl

end Strings

abbrev Spells (text : Text) (tokens : List Token) : Prop :=
  Text.Spells tokens? text tokens

namespace Spells

variable {text : Text} {tokens : List Token}

theorem cons {c : Char} {token : Token} (hc : Token.ofChar? c = some token)
    (h : Spells text tokens) : Spells (c :: text) (token :: tokens) := by
  have hspace : isSpace c = false := by
    unfold Token.ofChar? at hc
    split at hc <;> first | rfl | cases hc
  have hquote : c ≠ '\x22' := by
    rintro rfl
    cases hc
  intro rest
  rw [List.cons_append, tokens?, hspace, if_neg Bool.false_ne_true, if_neg hquote, hc, h,
    Option.bind_some, Option.map_map]
  rfl

theorem space {c : Char} (hc : isSpace c = true) (h : Spells text tokens) :
    Spells (c :: text) tokens := by
  intro rest
  rw [List.cons_append, tokens?, if_pos hc, h]

theorem newline (level : Nat) : Spells (newline level) [] := by
  apply space rfl
  induction 2 * level with
  | zero => apply Text.Spells.nil
  | succ n ih => apply space rfl ih

theorem quote (text : Text) : Spells (quote text) [.string text] := by
  intro rest
  have hspace : isSpace '\x22' = false := rfl
  rw [Json.quote, List.cons_append, List.cons_append, List.append_assoc, List.singleton_append,
    tokens?]
  simp only [hspace, Bool.false_eq_true, ↓reduceIte]
  split
  next hnone => rw [characters?_quoted] at hnone; cases hnone
  next hsome => rw [characters?_quoted] at hsome; cases hsome; rfl

end Spells

mutual

def tokens : Json → List Token
  | string text => [.string text]
  | array [] => [.openArray, .closeArray]
  | array (element :: elements) =>
    .openArray :: element.tokens ++ elementTokens elements ++ [.closeArray]
  | object [] => [.openObject, .closeObject]
  | object ((name, value) :: members) =>
    .openObject :: .string name :: .colon :: value.tokens ++ memberTokens members ++ [.closeObject]

def elementTokens : List Json → List Token
  | [] => []
  | element :: elements => .comma :: element.tokens ++ elementTokens elements

def memberTokens : List (Text × Json) → List Token
  | [] => []
  | (name, value) :: members =>
    .comma :: .string name :: .colon :: value.tokens ++ memberTokens members

end

theorem spells_name (name : Text) : Spells (quote name ++ [':', ' ']) [.string name, .colon] := by
  apply (Spells.quote name).append
  apply Spells.cons rfl
  apply Spells.space rfl
  apply Text.Spells.nil

theorem spells_close {c : Char} {token : Token} (h : Token.ofChar? c = some token) (level : Nat) :
    Spells (newline level ++ [c]) [token] := by
  apply (Spells.newline level).append
  apply Spells.cons h Text.Spells.nil

mutual

theorem spells_pretty (level : Nat) : ∀ value : Json, Spells (value.pretty level) value.tokens
  | string text => Spells.quote text
  | array [] => .cons rfl (.cons rfl .nil)
  | array (element :: elements) => by
    have hopen : Spells ('[' :: newline (level + 1)) [.openArray] :=
      .cons rfl (.newline (level + 1))
    rw [pretty, tokens, List.append_assoc]
    apply Text.Spells.append
    · apply (hopen.append (spells_pretty (level + 1) element)).append
      apply spells_prettyElements
    · apply spells_close rfl
  | object [] => .cons rfl (.cons rfl .nil)
  | object ((name, value) :: members) => by
    have hopen : Spells ('\x7b' :: newline (level + 1)) [.openObject] :=
      .cons rfl (.newline (level + 1))
    rw [pretty, tokens, List.append_assoc, List.append_assoc ('\x7b' :: newline (level + 1))]
    apply Text.Spells.append
    · apply ((hopen.append (spells_name name)).append (spells_pretty (level + 1) value)).append
      apply spells_prettyMembers
    · apply spells_close rfl

theorem spells_prettyElements (level : Nat) :
    ∀ elements : List Json, Spells (prettyElements level elements) (elementTokens elements)
  | [] => .nil
  | element :: elements => by
    have hcomma : Spells (',' :: newline level) [.comma] := .cons rfl (.newline level)
    apply (hcomma.append (spells_pretty level element)).append
    apply spells_prettyElements

theorem spells_prettyMembers (level : Nat) :
    ∀ members : List (Text × Json), Spells (prettyMembers level members) (memberTokens members)
  | [] => .nil
  | (name, value) :: members => by
    have hcomma : Spells (',' :: newline level) [.comma] := .cons rfl (.newline level)
    rw [prettyMembers, memberTokens, List.append_assoc (',' :: newline level)]
    apply ((hcomma.append (spells_name name)).append (spells_pretty level value)).append
    apply spells_prettyMembers

end

theorem head?_tokens_append_ne_closeArray (value : Json) (rest : List Token) :
    (value.tokens ++ rest).head? ≠ some .closeArray := by
  cases value with
  | string text => simp [tokens]
  | array elements => cases elements <;> simp [tokens]
  | object members => cases members <;> simp [tokens]

theorem value?_openArray (outer : List Open) {rest : List Token}
    (h : rest.head? ≠ some .closeArray) :
    value? outer (.openArray :: rest) = value? (.array [] :: outer) rest := by
  rw [value?]
  rintro rest' rfl
  apply h
  rfl

mutual

theorem value?_tokens_append (outer : List Open) (rest : List Token) :
    ∀ value : Json, value? outer (value.tokens ++ rest) = afterValue? outer value rest
  | string text => by simp [tokens, value?]
  | array [] => by simp [tokens, value?]
  | array (element :: elements) => by
    simp only [tokens, List.cons_append, List.append_assoc, List.nil_append]
    rw [value?_openArray outer (head?_tokens_append_ne_closeArray _ _), value?_tokens_append,
      afterValue?_elementTokens_append]
    rfl
  | object [] => by simp [tokens, value?]
  | object ((name, value) :: members) => by
    simp only [tokens, List.cons_append, List.append_assoc, List.nil_append, value?]
    rw [value?_tokens_append, afterValue?_memberTokens_append]
    rfl

theorem afterValue?_elementTokens_append (outer : List Open) (before : List Json) (element : Json)
    (rest : List Token) :
    ∀ elements : List Json,
      afterValue? (.array before :: outer) element (elementTokens elements ++ .closeArray :: rest)
        = afterValue? outer (.array (before.reverse ++ element :: elements)) rest
  | [] => by
    simp [elementTokens, afterValue?]
  | next :: elements => by
    simp only [elementTokens, List.cons_append, List.append_assoc, afterValue?]
    rw [value?_tokens_append, afterValue?_elementTokens_append]
    simp

theorem afterValue?_memberTokens_append (outer : List Open) (before : List (Text × Json))
    (name : Text) (value : Json) (rest : List Token) :
    ∀ members : List (Text × Json),
      afterValue? (.object before name :: outer) value
          (memberTokens members ++ .closeObject :: rest)
        = afterValue? outer (.object (before.reverse ++ (name, value) :: members)) rest
  | [] => by
    simp [memberTokens, afterValue?]
  | (next, value') :: members => by
    simp only [memberTokens, List.cons_append, List.append_assoc, afterValue?]
    rw [value?_tokens_append, afterValue?_memberTokens_append]
    simp

end

theorem read?_pretty (level : Nat) (value : Json) : read? (value.pretty level) = some value := by
  have hnil : tokens? [] = some [] := by
    rw [tokens?]
  have hvalue := value?_tokens_append [] [] value
  rw [List.append_nil] at hvalue
  rw [read?, (spells_pretty level value).tokens?_eq hnil, Option.bind_some, hvalue, afterValue?]

end ComponentTree.Json
