import ComponentTree.Proofs.Text.Basic
import ComponentTree.Proofs.Toml.Strings
import ComponentTree.Toml.Document

/-!
This module contains the values that a line of a document may give to a key without tables, how they
are written, and that each is read back as what was written, whatever follows on the next line.
-/

namespace ComponentTree.Toml

inductive Datum where
  | string (text : Text)
  | strings (texts : List Text)
  | boolean (b : Bool)
  | natural (n : Nat)

inductive WritesDatum : Datum → Text → Prop
  | string {text written : Text} (h : WritesString text written) :
      WritesDatum (.string text) written
  | strings {texts pieces : List Text} (h : List.Forall₂ WritesString texts pieces) :
      WritesDatum (.strings texts) ('[' :: ([',', ' '].intercalate pieces ++ [']']))
  | boolean (b : Bool) : WritesDatum (.boolean b) (toString b).toList
  | natural (n : Nat) : WritesDatum (.natural n) (Text.toDigits 10 n)

def Value.HoldsText (value : Value) (text : Text) : Prop :=
  ∃ span, value = .scalar span (.string text)

inductive Value.Holds : Value → Datum → Prop
  | string {value : Value} {text : Text} (h : value.HoldsText text) : value.Holds (.string text)
  | strings {items : List Value} {texts : List Text} (span : Span)
      (h : List.Forall₂ Value.HoldsText items texts) :
      Value.Holds (.array span false items) (.strings texts)
  | boolean (span : Span) (b : Bool) : Value.Holds (.scalar span (.boolean b)) (.boolean b)
  | natural (span : Span) (n : Nat) :
      Value.Holds (.scalar span (.integer (some n))) (.natural n)

/-! ### Numbers -/

section Numbers

variable {digits : Text} (hdigits : ∀ c ∈ digits, c.isDigit = true)

include hdigits

theorem signed_of_forall_isDigit : signed digits = (false, digits) := by
  cases digits with
  | nil => rfl
  | cons c digits =>
    have hc := hdigits c List.mem_cons_self
    rw [signed]
    · rintro _ ⟨⟩
      cases hc
    · rintro _ ⟨⟩
      cases hc

theorem ungrouped?_of_forall_isDigit (isDigit : Char → Bool) :
    ungrouped? isDigit digits = some digits := by
  have hplain : '_' ∉ digits := by
    intro hmem
    cases hdigits _ hmem
  rw [ungrouped?, List.splitOn_eq_singleton hplain]
  simp

theorem decimalValue?_of_forall_isDigit :
    decimalValue? digits = (Text.ofDigits? 10 digits).map Int.ofNat := by
  unfold decimalValue?
  rw [signed_of_forall_isDigit hdigits]
  dsimp only
  cases Text.ofDigits? 10 digits with
  | none => rfl
  | some n => rfl

theorem decimalInteger?_of_forall_isDigit (hne : digits ≠ []) (hzero : hasIdleZero digits = false) :
    decimalInteger? digits = some (.integer ((Text.ofDigits? 10 digits).map Int.ofNat)) := by
  have htail : digits.dropWhile Char.isDigit = [] := by
    rw [← List.append_nil digits, List.dropWhile_append_of_pos hdigits, List.dropWhile_nil]
  rw [decimalInteger?, signed_of_forall_isDigit hdigits]
  dsimp only
  rw [htail, if_neg (by simp [hne, hzero]), ungrouped?_of_forall_isDigit hdigits, Option.map_some,
    decimalValue?_of_forall_isDigit hdigits]

theorem integer?_of_forall_isDigit : integer? digits = decimalInteger? digits := by
  unfold integer?
  split
  next => cases hdigits 'x' (by simp)
  next => cases hdigits 'o' (by simp)
  next => cases hdigits 'b' (by simp)
  next => rfl

end Numbers

theorem hasIdleZero_toDigits (n : Nat) : hasIdleZero (Text.toDigits 10 n) = false := by
  by_cases h : n = 0
  · subst h
    rfl
  · have hfirst := Text.head?_toDigits_ne_zero (Nat.pos_of_ne_zero h)
    unfold hasIdleZero
    split
    next heq =>
      rw [heq] at hfirst
      exact absurd rfl hfirst
    next => rfl

theorem ofBare?_toDigits (n : Nat) :
    Scalar.ofBare? (Text.toDigits 10 n) = some (.integer (some n)) := by
  have hdigits : ∀ c ∈ Text.toDigits 10 n, c.isDigit = true :=
    fun _ => Text.isDigit_of_mem_toDigits
  have htrue : Text.toDigits 10 n ≠ "true".toList := by
    intro h
    cases hdigits 't' (by rw [h]; decide)
  have hfalse : Text.toDigits 10 n ≠ "false".toList := by
    intro h
    cases hdigits 'f' (by rw [h]; decide)
  rw [Scalar.ofBare?, if_neg htrue, if_neg hfalse, integer?_of_forall_isDigit hdigits,
    decimalInteger?_of_forall_isDigit hdigits (Text.toDigits_ne_nil 10 n) (hasIdleZero_toDigits n),
    Text.ofDigits?_toDigits]
  rfl

variable {c : Char} {text written rest word : Text} {n depth fuel : Nat}

/-! ### Words -/

def IsWord (word : Text) : Prop :=
  ∀ c ∈ word, endsBare c = false ∧ c ≠ '\x22' ∧ c ≠ '\x27' ∧ c ≠ '.'

theorem contains_eq_false_of_endsBare (h : endsBare c = false) {marks : Text}
    (hmarks : marks ⊆ "=,[]#\r\n".toList) : marks.contains c = false := by
  simp only [endsBare, Bool.or_eq_false_iff] at h
  have hnone := h.1.1.1
  rw [List.contains_eq_mem, decide_eq_false_iff_not] at hnone ⊢
  exact fun hmem => hnone (hmarks hmem)

theorem bareWord_append (h : IsWord word) (inWord : Bool) (rest : Text) :
    bareWord inWord (word ++ '\n' :: rest) = (word, '\n' :: rest) := by
  induction word generalizing inWord with
  | nil => rfl
  | cons c word ih =>
    rw [IsWord, List.forall_mem_cons] at h
    rcases h with ⟨⟨hends, hquote, hapostrophe, _⟩, hword⟩
    rw [List.cons_append, bareWord, if_neg (by simp [hends, hquote, hapostrophe]), ih hword]

theorem bareWords_newline (fuel : Nat) (rest : Text) :
    bareWords fuel ('\n' :: rest) = ([], '\n' :: rest) := by
  cases fuel with
  | zero => rfl
  | succ fuel => rfl

theorem bareWords_append (h : IsWord word) (hne : word ≠ []) (fuel : Nat) (rest : Text) :
    bareWords (fuel + 1) (word ++ '\n' :: rest) = (word, '\n' :: rest) := by
  have hblanks : skipInlineBlanks ('\n' :: rest) = '\n' :: rest := rfl
  rw [bareWords, bareWord_append h]
  dsimp only
  rw [if_neg hne, hblanks, bareWords_newline]
  rfl

theorem quoted?_eq_none {c : Char} (hquote : c ≠ '\x22') (hapostrophe : c ≠ '\x27') (text : Text) :
    quoted? (c :: text) = none := by
  unfold quoted?
  split
  next heq => exact absurd (List.cons.inj heq).1 hquote
  next heq => exact absurd (List.cons.inj heq).1 hapostrophe
  next heq => exact absurd (List.cons.inj heq).1 hquote
  next heq => exact absurd (List.cons.inj heq).1 hapostrophe
  next => rfl

theorem quoted?_append_eq_none (h : IsWord word) (hne : word ≠ []) (rest : Text) :
    quoted? (word ++ rest) = none := by
  cases word with
  | nil => contradiction
  | cons c word =>
    have hc := h c List.mem_cons_self
    exact quoted?_eq_none hc.2.1 hc.2.2.1 _

theorem scalar?_append (h : IsWord word) (hne : word ≠ []) (rest : Text) :
    scalar? (word ++ '\n' :: rest)
      = some (⟨.bare, word, true, .between (word ++ '\n' :: rest) ('\n' :: rest)⟩,
          '\n' :: rest) := by
  rw [scalar?, quoted?_append_eq_none h hne]
  dsimp only
  rw [bareWords_append h hne]
  exact if_neg hne

theorem value?_cons {c : Char} (hbracket : c ≠ '[') (hbrace : c ≠ '\x7b') (depth : Nat)
    (text : Text) :
    value? depth (c :: text)
      = (scalar? (c :: text)).map fun (lexeme, rest) => (.scalar lexeme, rest) := by
  rw [value?]
  · exact fun _ _ h => absurd (List.cons.inj h).1 hbracket
  · exact fun _ _ h => absurd (List.cons.inj h).1 hbrace

theorem value?_append (h : IsWord word) (hne : word ≠ []) (depth : Nat) (rest : Text) :
    ∃ span, value? depth (word ++ '\n' :: rest)
      = some (.scalar ⟨.bare, word, true, span⟩, '\n' :: rest) := by
  have hscalar := scalar?_append h hne rest
  cases word with
  | nil => contradiction
  | cons c word =>
    have hends := (h c List.mem_cons_self).1
    have hbracket : c ≠ '[' := by
      rintro rfl
      cases hends
    have hbrace : c ≠ '\x7b' := by
      rintro rfl
      cases hends
    rw [List.cons_append] at hscalar ⊢
    rw [value?_cons hbracket hbrace, hscalar]
    exact ⟨_, rfl⟩

theorem isWord_of_forall_isBareKeyChar (h : ∀ c ∈ word, isBareKeyChar c = true) :
    IsWord word := by
  intro c hc
  have hbare := h c hc
  refine ⟨?_, ?_, ?_, ?_⟩
  · rw [← Bool.not_eq_true]
    intro hends
    simp only [endsBare, isInlineBlank, Bool.or_eq_true, List.contains_eq_mem, decide_eq_true_eq]
      at hends
    have hmarks : ("=,[]#\r\n".toList.all fun c => !isBareKeyChar c) = true := by decide
    rcases hends with ((hends | rfl) | rfl) | rfl | rfl
    · have := List.all_eq_true.1 hmarks c hends
      rw [hbare] at this
      cases this
    all_goals cases hbare
  all_goals
    rintro rfl
    cases hbare

theorem isWord_toDigits (n : Nat) : IsWord (Text.toDigits 10 n) := by
  apply isWord_of_forall_isBareKeyChar
  intro c hc
  rw [isBareKeyChar, Char.isAlphanum, Text.isDigit_of_mem_toDigits hc, Bool.or_true]
  rfl

theorem isWord_boolean (b : Bool) : IsWord (toString b).toList := by
  apply isWord_of_forall_isBareKeyChar
  rw [← List.all_eq_true]
  cases b with
  | false => decide
  | true => decide

/-! ### Strings -/

theorem value?_writesString {piece : Text} (h : WritesString text piece) (depth : Nat)
    (rest : Text) (hrest : rest.head? ≠ some '\x22') :
    ∃ lexeme, value? depth (piece ++ rest) = some (.scalar lexeme, rest) ∧
      Scalar.ofLexeme? lexeme = some (.string text) := by
  cases h with
  | @quoted body h =>
    rw [List.cons_append, List.append_assoc, List.singleton_append,
      value?_cons (by decide) (by decide), scalar?, quoted?_of_writesBody h hrest]
    refine ⟨_, rfl, ?_⟩
    rw [Scalar.ofLexeme?, Lexeme.quotedText?]
    dsimp only
    rw [basicText?_of_writesBody h]
    rfl

/-! ### Arrays of strings -/

def RawValue.DecodesTo (item : RawValue) (text : Text) : Prop :=
  ∃ value : Value, Value.ofRaw item = .ok value ∧ value.HoldsText text

theorem exists_item {piece : Text} (h : WritesString text piece) (depth : Nat) (rest : Text)
    (hrest : rest.head? ≠ some '\x22') :
    ∃ item : RawValue, value? depth (piece ++ rest) = some (item, rest) ∧ item.DecodesTo text := by
  rcases value?_writesString h depth rest hrest with ⟨lexeme, hvalue, hlexeme⟩
  refine ⟨_, hvalue, .scalar lexeme.span (.string text), ?_, lexeme.span, rfl⟩
  rw [Value.ofRaw, hlexeme]

section Items

variable {item? : Text → Option (RawValue × Text)} {first : Char} {front : Text}
  {item : RawValue} (hskip : skipFiller? false text = some (first :: front)) (hfirst : first ≠ ']')

include hskip hfirst

theorem items?_closed (hitem : item? (first :: front) = some (item, ']' :: rest)) (fuel : Nat) :
    items? item? (fuel + 1) text = some ([item], rest) := by
  rw [items?, hskip, Option.bind_eq_bind, Option.bind_some]
  split
  next heq => exact absurd (List.cons.inj heq).1 hfirst
  next =>
    rw [hitem]
    rfl

theorem items?_continued (hitem : item? (first :: front) = some (item, ',' :: rest))
    (fuel : Nat) :
    items? item? (fuel + 1) text
      = (items? item? fuel rest).map fun (items, rest) => (item :: items, rest) := by
  rw [items?, hskip, Option.bind_eq_bind, Option.bind_some]
  split
  next heq => exact absurd (List.cons.inj heq).1 hfirst
  next =>
    rw [hitem]
    exact Option.map_eq_bind.symm

end Items

theorem skipFiller?_intercalate {texts pieces : List Text}
    (h : List.Forall₂ WritesString texts pieces) (rest : Text) :
    skipFiller? false ([',', ' '].intercalate pieces ++ ']' :: rest)
      = some ([',', ' '].intercalate pieces ++ ']' :: rest) := by
  cases h with
  | nil => rfl
  | cons hpiece h =>
    cases hpiece
    cases h with
    | nil =>
      rw [List.intercalate_singleton]
      rfl
    | cons =>
      rw [List.intercalate_cons_cons]
      rfl

theorem items?_intercalate {texts pieces : List Text}
    (h : List.Forall₂ WritesString texts pieces) (hne : pieces ≠ []) (depth : Nat) {fuel : Nat}
    (hfuel : pieces.length ≤ fuel)
    (hskip : skipFiller? false text = some ([',', ' '].intercalate pieces ++ ']' :: rest)) :
    ∃ items, items? (value? depth) fuel text = some (items, rest) ∧
      List.Forall₂ RawValue.DecodesTo items texts := by
  -- From the second item on there is a blank in front, so that `text` is given up to filler only.
  induction h generalizing text fuel with
  | nil => contradiction
  | @cons first piece texts pieces hpiece h ih =>
    obtain ⟨fuel, rfl⟩ : ∃ k, fuel = k + 1 := ⟨fuel - 1, by simp at hfuel; omega⟩
    cases h with
    | nil =>
      rw [List.intercalate_singleton] at hskip
      rcases exists_item hpiece depth (']' :: rest) (by simp) with ⟨item, hitem, hdecodes⟩
      refine ⟨[item], ?_, .cons hdecodes .nil⟩
      cases hpiece with
      | quoted => exact items?_closed hskip (by decide) hitem fuel
    | @cons second piece' texts pieces hpiece' h =>
      have hpieces := List.Forall₂.cons hpiece' h
      have hfuel' : (piece' :: pieces).length ≤ fuel := by
        simp only [List.length_cons] at hfuel ⊢
        omega
      have hnext : skipFiller? false
          (' ' :: ([',', ' '].intercalate (piece' :: pieces) ++ ']' :: rest))
            = some ([',', ' '].intercalate (piece' :: pieces) ++ ']' :: rest) :=
        skipFiller?_intercalate hpieces rest
      rcases ih (by simp) hfuel' hnext with ⟨items, hitems, hdecode⟩
      rw [List.intercalate_cons_cons, List.append_assoc, List.append_assoc] at hskip
      rcases exists_item hpiece depth
          (',' :: ' ' :: ([',', ' '].intercalate (piece' :: pieces) ++ ']' :: rest)) (by simp) with
        ⟨item, hitem, hdecodes⟩
      refine ⟨item :: items, ?_, .cons hdecodes hdecode⟩
      cases hpiece with
      | quoted =>
        rw [items?_continued hskip (by decide) hitem fuel, hitems]
        rfl

theorem length_le_length_intercalate {texts pieces : List Text}
    (h : List.Forall₂ WritesString texts pieces) :
    pieces.length ≤ ([',', ' '].intercalate pieces).length := by
  induction h with
  | nil => simp
  | @cons first piece texts pieces hpiece h ih =>
    have hlength : 0 < piece.length := by
      cases hpiece
      simp
    cases h with
    | nil =>
      rw [List.intercalate_singleton]
      exact hlength
    | cons =>
      rw [List.intercalate_cons_cons]
      simp only [List.length_cons, List.length_append] at ih ⊢
      omega

theorem exists_items {texts pieces : List Text} (h : List.Forall₂ WritesString texts pieces)
    (depth : Nat) (rest : Text) {inner : Text}
    (hinner : inner = [',', ' '].intercalate pieces ++ ']' :: rest) :
    ∃ items, items? (value? depth) (inner.length + 1) inner = some (items, rest) ∧
      List.Forall₂ RawValue.DecodesTo items texts := by
  subst hinner
  by_cases hne : pieces = []
  · subst hne
    cases h
    exact ⟨[], rfl, .nil⟩
  · apply items?_intercalate h hne depth _ (skipFiller?_intercalate h rest)
    have hlength := length_le_length_intercalate h
    rw [List.length_append]
    omega

theorem ofRaw_array {items : List RawValue} {texts : List Text}
    (h : List.Forall₂ RawValue.DecodesTo items texts) (span : Span) :
    ∃ value : Value, Value.ofRaw (.array span items) = .ok value
      ∧ value.Holds (.strings texts) := by
  have hmapM : ∃ values, items.mapM Value.ofRaw = .ok values ∧
      List.Forall₂ Value.HoldsText values texts := by
    induction h with
    | nil => exact ⟨[], rfl, .nil⟩
    | cons hitem _ ih =>
      rcases hitem with ⟨value, hvalue, hholds⟩
      rcases ih with ⟨values, hvalues, hall⟩
      refine ⟨value :: values, ?_, .cons hholds hall⟩
      rw [List.mapM_cons, hvalue, hvalues]
      rfl
  rcases hmapM with ⟨values, hvalues, hall⟩
  refine ⟨_, ?_, .strings span hall⟩
  rw [Value.ofRaw, List.mapM_subtype (fun _ _ => rfl), List.unattach_attach, hvalues]
  rfl

theorem exists_value {datum : Datum} (h : WritesDatum datum written) (depth : Nat) (rest : Text) :
    ∃ raw value, value? (depth + 1) (written ++ '\n' :: rest) = some (raw, '\n' :: rest) ∧
      Value.ofRaw raw = .ok value ∧ value.Holds datum := by
  cases h with
  | string h =>
    rcases exists_item h (depth + 1) ('\n' :: rest) (by simp) with
      ⟨raw, hraw, value, hvalue, hholds⟩
    exact ⟨raw, value, hraw, hvalue, .string hholds⟩
  | @strings texts pieces h =>
    rcases exists_items h depth ('\n' :: rest) rfl with ⟨items, hitems, hdecode⟩
    rcases ofRaw_array hdecode (.between
        ('[' :: ([',', ' '].intercalate pieces ++ ']' :: '\n' :: rest)) ('\n' :: rest)) with
      ⟨value, hvalue, hholds⟩
    refine ⟨_, value, ?_, hvalue, hholds⟩
    rw [List.cons_append, List.append_assoc, List.singleton_append, value?, hitems]
    rfl
  | boolean b =>
    have hne : (toString b).toList ≠ [] := by
      cases b with
      | false => decide
      | true => decide
    rcases value?_append (isWord_boolean b) hne (depth + 1) rest with ⟨span, hvalue⟩
    refine ⟨_, _, hvalue, ?_, .boolean span b⟩
    rw [Value.ofRaw]
    cases b with
    | false => rfl
    | true => rfl
  | natural n =>
    rcases value?_append (isWord_toDigits n) (Text.toDigits_ne_nil 10 n) (depth + 1) rest with
      ⟨span, hvalue⟩
    refine ⟨_, _, hvalue, ?_, .natural span n⟩
    rw [Value.ofRaw, Scalar.ofLexeme?]
    dsimp only
    rw [ofBare?_toDigits]

theorem WritesDatum.head {datum : Datum} (h : WritesDatum datum written) :
    ∃ c front, written = c :: front ∧ isInlineBlank c = false ∧
      "#\r\n".toList.contains c = false := by
  cases h with
  | string h =>
    cases h with
    | quoted => exact ⟨_, _, rfl, rfl, rfl⟩
  | strings => exact ⟨_, _, rfl, rfl, rfl⟩
  | boolean b =>
    cases b with
    | false => exact ⟨_, _, rfl, rfl, rfl⟩
    | true => exact ⟨_, _, rfl, rfl, rfl⟩
  | natural n =>
    cases hdigits : Text.toDigits 10 n with
    | nil => exact absurd hdigits (Text.toDigits_ne_nil 10 n)
    | cons c digits =>
      have hends := (isWord_toDigits n c (by rw [hdigits]; exact List.mem_cons_self)).1
      refine ⟨c, digits, rfl, ?_, contains_eq_false_of_endsBare hends (by decide)⟩
      rw [endsBare, Bool.or_eq_false_iff] at hends
      exact hends.2

/-! ### Writing -/

def writeDatum : Datum → Text
  | .string text => writeString text
  | .strings texts => '[' :: ([',', ' '].intercalate (texts.map writeString) ++ [']'])
  | .boolean b => (toString b).toList
  | .natural n => Text.toDigits 10 n

theorem writesDatum_writeDatum (datum : Datum) : WritesDatum datum (writeDatum datum) := by
  cases datum with
  | string text => exact .string (writesString_writeString text)
  | strings texts =>
    apply WritesDatum.strings
    rw [List.forall₂_map_right_iff, List.forall₂_same]
    exact fun text _ => writesString_writeString text
  | boolean b => exact .boolean b
  | natural n => exact .natural n

end ComponentTree.Toml
