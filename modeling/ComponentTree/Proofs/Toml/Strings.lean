import Mathlib.Data.List.Forall2
import ComponentTree.Toml.Scalar

/-!
This module contains the ways in which a text may be written as a basic string, and that each of
them is read as the text. A character stands for itself unless it would end the string or start an
escape, and any character may be written as an escape.
-/

namespace ComponentTree.Toml

def shortEscapes : List (Char × Char) :=
  [('b', '\x08'), ('t', '\t'), ('n', '\n'), ('f', '\x0c'), ('r', '\r'), ('\x22', '\x22'),
   ('\\', '\\')]

inductive WritesChar : Char → Text → Prop
  | plain {c : Char} (hquote : c ≠ '\x22') (hbackslash : c ≠ '\\')
      (hcontrol : isControl c = false) : WritesChar c [c]
  | short {c letter : Char} (h : (letter, c) ∈ shortEscapes) : WritesChar c ['\\', letter]
  | code {c : Char} {digits : Text} (hlength : digits.length = 4)
      (h : Text.ofDigits? 16 digits = some c.toNat) : WritesChar c ('\\' :: 'u' :: digits)
  | longCode {c : Char} {digits : Text} (hlength : digits.length = 8)
      (h : Text.ofDigits? 16 digits = some c.toNat) : WritesChar c ('\\' :: 'U' :: digits)

inductive WritesBody : Text → Text → Prop
  | nil : WritesBody [] []
  | cons {c : Char} {text piece body : Text} (hc : WritesChar c piece)
      (h : WritesBody text body) : WritesBody (c :: text) (piece ++ body)

inductive WritesString (text : Text) : Text → Prop
  | quoted {body : Text} (h : WritesBody text body) :
      WritesString text ('\x22' :: (body ++ ['\x22']))

variable {c : Char} {text piece body rest : Text}

/-! ### Taking a string off a text -/

theorem basicQuoted_plain (hquote : c ≠ '\x22') (hbackslash : c ≠ '\\') (hline : c ≠ '\n') :
    basicQuoted (c :: text) = ((basicQuoted text).1.cons c, (basicQuoted text).2) := by
  rw [basicQuoted]
  · exact hquote
  · exact hline
  · exact fun _ h => absurd h hbackslash
  · exact fun _ h => absurd h hbackslash

theorem basicQuoted_backslash (hline : c ≠ '\n') :
    basicQuoted ('\\' :: c :: text)
      = (((basicQuoted text).1.cons c).cons '\\', (basicQuoted text).2) := by
  by_cases hquote : c = '\x22'
  · subst hquote
    rw [basicQuoted]
  · by_cases hbackslash : c = '\\'
    · subst hbackslash
      rw [basicQuoted]
    · rw [basicQuoted, basicQuoted_plain hquote hbackslash hline]
      · decide
      · decide
      · rintro _ _ ⟨⟩
        exact hquote rfl
      · rintro _ _ ⟨⟩
        exact hbackslash rfl

def Quoted.prepend (piece : Text) (q : Quoted) : Quoted :=
  { q with body := piece ++ q.body }

theorem basicQuoted_append (h : ∀ c ∈ piece, c ≠ '\x22' ∧ c ≠ '\\' ∧ c ≠ '\n') :
    basicQuoted (piece ++ text)
      = ((basicQuoted text).1.prepend piece, (basicQuoted text).2) := by
  induction piece with
  | nil => rfl
  | cons c piece ih =>
    rw [List.forall_mem_cons] at h
    rw [List.cons_append, basicQuoted_plain h.1.1 h.1.2.1 h.1.2.2, ih h.2]
    rfl

/-! ### Digits -/

theorem forall_digit?_of_foldlM {base n m : Nat} {digits : Text}
    (h : digits.foldlM (fun n c => (Text.digit? base c).map (n * base + ·)) n = some m) :
    ∀ c ∈ digits, (Text.digit? base c).isSome = true := by
  induction digits generalizing n with
  | nil => simp
  | cons c digits ih =>
    rw [List.foldlM_cons] at h
    rcases Option.bind_eq_some_iff.1 h with ⟨k, hk, hrest⟩
    rcases Option.map_eq_some_iff.1 hk with ⟨d, hd, rfl⟩
    rw [List.forall_mem_cons, hd]
    exact ⟨rfl, ih hrest⟩

theorem forall_digit?_of_ofDigits? {base n : Nat} {digits : Text}
    (h : Text.ofDigits? base digits = some n) :
    ∀ c ∈ digits, (Text.digit? base c).isSome = true := by
  rw [Text.ofDigits?] at h
  split at h
  · cases h
  · exact forall_digit?_of_foldlM h

theorem plain_of_digit? (h : (Text.digit? 16 c).isSome = true) :
    c ≠ '\x22' ∧ c ≠ '\\' ∧ c ≠ '\n' := by
  refine ⟨?_, ?_, ?_⟩
  · rintro rfl
    revert h
    decide
  · rintro rfl
    revert h
    decide
  · rintro rfl
    revert h
    decide

theorem escape?_append {letter : Char} {digits : Text}
    (hwidth : escapeWidth? letter = some digits.length)
    (h : Text.ofDigits? 16 digits = some c.toNat) (rest : Text) :
    escape? (letter :: (digits ++ rest)) = some (c, rest) := by
  have hlength : ¬(digits ++ rest).length < digits.length := by simp
  have hvalid : c.toNat.isValidChar := c.valid
  have hchar : charOfDigits? digits = some c := by
    rw [charOfDigits?, h, Option.bind_some, if_pos hvalid, Char.ofNat_toNat]
  simp only [escape?, hwidth]
  rw [if_neg hlength, List.take_left, List.drop_left, hchar]
  rfl

theorem escape?_short {letter : Char} (h : (letter, c) ∈ shortEscapes) (rest : Text) :
    escape? (letter :: rest) = some (c, rest) ∧ letter ≠ '\n' := by
  simp only [shortEscapes, List.mem_cons, Prod.mk.injEq, List.not_mem_nil, or_false] at h
  rcases h with ⟨rfl, rfl⟩ | ⟨rfl, rfl⟩ | ⟨rfl, rfl⟩ | ⟨rfl, rfl⟩ | ⟨rfl, rfl⟩ | ⟨rfl, rfl⟩ |
    ⟨rfl, rfl⟩
  all_goals exact ⟨rfl, by decide⟩

/-! ### Reading a string back -/

theorem basicText?_of_escape? (h : escape? text = some (c, rest)) :
    basicText? ('\\' :: text) = (basicText? rest).map (c :: ·) := by
  rw [basicText?, if_pos rfl]
  split
  next heq =>
    rw [h] at heq
    cases heq
  next heq =>
    rw [h] at heq
    cases heq
    rfl

namespace WritesChar

theorem basicQuoted (h : WritesChar c piece) (text : Text) :
    Toml.basicQuoted (piece ++ text)
      = ((Toml.basicQuoted text).1.prepend piece, (Toml.basicQuoted text).2) := by
  cases h with
  | plain hquote hbackslash hcontrol =>
    apply basicQuoted_plain hquote hbackslash
    rintro rfl
    cases hcontrol
  | short h => exact basicQuoted_backslash (escape?_short h []).2
  | code hlength h | longCode hlength h =>
    have hdigits := fun d hd => plain_of_digit? (forall_digit?_of_ofDigits? h d hd)
    rw [List.cons_append, List.cons_append, basicQuoted_backslash (by decide),
      basicQuoted_append hdigits]
    rfl

theorem basicText? (h : WritesChar c piece) (body : Text) :
    Toml.basicText? (piece ++ body) = (Toml.basicText? body).map (c :: ·) := by
  cases h with
  | plain hquote hbackslash hcontrol =>
    rw [List.singleton_append, Toml.basicText?, if_neg hbackslash, if_neg (by simp [hcontrol])]
  | short h => exact basicText?_of_escape? (escape?_short h body).1
  | code hlength h | longCode hlength h =>
    apply basicText?_of_escape?
    apply escape?_append _ h
    rw [hlength]
    rfl

theorem head_ne_quote (h : WritesChar c piece) : ∃ d rest, piece = d :: rest ∧ d ≠ '\x22' := by
  cases h with
  | plain hquote => exact ⟨c, [], rfl, hquote⟩
  | short | code | longCode => exact ⟨'\\', _, rfl, by decide⟩

end WritesChar

theorem basicQuoted_of_writesBody (h : WritesBody text body) (rest : Text) :
    basicQuoted (body ++ '\x22' :: rest) = (⟨body, true⟩, rest) := by
  induction h with
  | nil => rw [List.nil_append, basicQuoted]
  | cons hc _ ih =>
    rw [List.append_assoc, hc.basicQuoted, ih]
    rfl

theorem basicText?_of_writesBody (h : WritesBody text body) : basicText? body = some text := by
  induction h with
  | nil => rw [basicText?]
  | cons hc _ ih =>
    rw [hc.basicText?, ih]
    rfl

theorem quoted?_of_writesBody (h : WritesBody text body) (hrest : rest.head? ≠ some '\x22') :
    quoted? ('\x22' :: (body ++ '\x22' :: rest))
      = some (⟨.basic, body, true, .between ('\x22' :: (body ++ '\x22' :: rest)) rest⟩, rest) := by
  have hread := basicQuoted_of_writesBody h rest
  unfold quoted?
  split
  next inner heq =>
    -- Three quotes at the front: the body is empty and a quote follows, or it starts with a quote.
    exfalso
    rw [List.cons.injEq] at heq
    cases h with
    | nil =>
      simp only [List.nil_append, List.cons.injEq, true_and] at heq
      rw [heq] at hrest
      exact hrest rfl
    | cons hc _ =>
      rcases hc.head_ne_quote with ⟨d, piece, rfl, hd⟩
      exact hd (List.cons.inj heq.2).1
  next heq => simp at heq
  next inner heq =>
    obtain rfl := (List.cons.inj heq).2
    rw [hread]
  next heq => simp at heq
  next hbasic _ => exact absurd rfl (hbasic _)

/-! ### Writing a string -/

def codeDigits (n : Nat) : Text :=
  ['0', '0'] ++ Text.toDigits 16 (n / 16) ++ Text.toDigits 16 (n % 16)

def writeChar (c : Char) : Text :=
  match shortEscapes.find? (·.2 = c) with
  | some (letter, _) => ['\\', letter]
  | none => if isControl c then '\\' :: 'u' :: codeDigits c.toNat else [c]

def writeString (text : Text) : Text :=
  '\x22' :: (text.flatMap writeChar ++ ['\x22'])

theorem ofDigits?_codeDigits {n : Nat} (h : n < 0x80) :
    (codeDigits n).length = 4 ∧ Text.ofDigits? 16 (codeDigits n) = some n := by
  revert n
  decide

theorem lt_of_isControl (h : isControl c = true) : c.toNat < 0x80 := by
  simp only [isControl, Bool.or_eq_true, Bool.and_eq_true, decide_eq_true_eq] at h
  rcases h with h | rfl
  · omega
  · decide

theorem writesChar_writeChar (c : Char) : WritesChar c (writeChar c) := by
  unfold writeChar
  split
  next letter c' hfind =>
    have hc : c' = c := by simpa using List.find?_some hfind
    rw [hc] at hfind
    exact .short (List.mem_of_find?_eq_some hfind)
  next hfind =>
    have hnone := List.find?_eq_none.1 hfind
    split
    next hcontrol =>
      have hdigits := ofDigits?_codeDigits (lt_of_isControl hcontrol)
      exact .code hdigits.1 hdigits.2
    next hcontrol =>
      apply WritesChar.plain
      · rintro rfl
        exact hnone ('\x22', '\x22') (by decide) rfl
      · rintro rfl
        exact hnone ('\\', '\\') (by decide) rfl
      · rwa [Bool.not_eq_true] at hcontrol

theorem writesString_writeString (text : Text) : WritesString text (writeString text) := by
  apply WritesString.quoted
  induction text with
  | nil => exact .nil
  | cons c text ih => exact .cons (writesChar_writeChar c) ih

end ComponentTree.Toml
