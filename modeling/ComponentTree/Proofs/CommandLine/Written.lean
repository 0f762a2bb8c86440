import ComponentTree.CommandLine
import ComponentTree.Proofs.Text.Basic
import Mathlib.Data.List.Forall2

/-!
This module contains the arguments by which options and targets may be written, and what each option
makes of the values that may be written for it.
-/

namespace ComponentTree.CommandLine

inductive Choice where
  | root (text : Text)
  | output (format : OutputFormat)
  | depth (count : Nat)
  | config (text : Text)
  | flag (flag : Flag)
deriving DecidableEq

def Choice.switch : Choice → Switch
  | root _ => .setting .root
  | output _ => .setting .output
  | depth _ => .setting .depth
  | config _ => .setting .config
  | flag f => .flag f

def paddedDigits (zeros n : Nat) : Text :=
  List.replicate zeros '0' ++ Text.toDigits 10 n

inductive WritesCount (n : Nat) : Text → Prop
  | plain (zeros : Nat) : WritesCount n (paddedDigits zeros n)
  | signed (zeros : Nat) : WritesCount n ('+' :: paddedDigits zeros n)

inductive Setting.Says : Setting → Text → Choice → Prop
  | root {text : Text} (h : text ≠ []) : Says .root text (.root text)
  | output (format : OutputFormat) : Says .output format.name.toList (.output format)
  | depth {n : Nat} {value : Text} (h : WritesCount n value) (hn : n < Nat.pow 2 64) :
      Says .depth value (.depth n)
  | config {text : Text} (h : text ≠ []) : Says .config text (.config text)

def IsPlain (word : Text) : Prop :=
  word = ['-'] ∨ word.head? ≠ some '-'

abbrev WritesLetters : List Flag → Text → Prop :=
  List.Forall₂ fun flag c => flag.letter? = some c

/--
How choices may be written that are made together: one by its long name, or several by a cluster of
letters. The last letter of a cluster may be that of an option with a value.
-/
inductive WritesChoices : List Choice → List Text → Prop
  | flag (flag : Flag) : WritesChoices [.flag flag] ['-' :: '-' :: flag.name.toList]
  | joined {setting : Setting} {value : Text} {choice : Choice} (h : setting.Says value choice) :
      WritesChoices [choice] ['-' :: '-' :: (setting.name.toList ++ '=' :: value)]
  | detached {setting : Setting} {value : Text} {choice : Choice} (h : setting.Says value choice)
      (hplain : IsPlain value) :
      WritesChoices [choice] ['-' :: '-' :: setting.name.toList, value]
  | cluster {flags : List Flag} {letters : Text} (hletters : WritesLetters flags letters)
      (hne : letters ≠ []) : WritesChoices (flags.map .flag) ['-' :: letters]
  | clusterAttached {flags : List Flag} {letters : Text} (hletters : WritesLetters flags letters)
      {setting : Setting} {value : Text} {choice : Choice} (h : setting.Says value choice)
      (hfront : value.head? ≠ some '=') :
      WritesChoices (flags.map .flag ++ [choice]) ['-' :: (letters ++ setting.letter :: value)]
  | clusterJoined {flags : List Flag} {letters : Text} (hletters : WritesLetters flags letters)
      {setting : Setting} {value : Text} {choice : Choice} (h : setting.Says value choice) :
      WritesChoices (flags.map .flag ++ [choice])
        ['-' :: (letters ++ setting.letter :: '=' :: value)]
  | clusterDetached {flags : List Flag} {letters : Text} (hletters : WritesLetters flags letters)
      {setting : Setting} {value : Text} {choice : Choice} (h : setting.Says value choice)
      (hplain : IsPlain value) :
      WritesChoices (flags.map .flag ++ [choice]) ['-' :: (letters ++ [setting.letter]), value]

inductive Part where
  | choice (choice : Choice)
  | target (word : Text)

def Part.choice? : Part → Option Choice
  | choice c => some c
  | target _ => none

def Part.target? : Part → Option Text
  | choice _ => none
  | target word => some word

/--
How parts may be written. A target may stand anywhere among the options if it is a plain word, and
after `--` whatever it is.
-/
inductive Writes : List Part → List Text → Prop
  | nil : Writes [] []
  | choices {choices : List Choice} {parts : List Part} {args args' : List Text}
      (h : WritesChoices choices args) (h' : Writes parts args') :
      Writes (choices.map .choice ++ parts) (args ++ args')
  | target {word : Text} {parts : List Part} {args : List Text} (hplain : IsPlain word)
      (hne : word ≠ []) (h : Writes parts args) : Writes (.target word :: parts) (word :: args)
  | ended {words : List Text} (hne : ∀ word ∈ words, word ≠ []) :
      Writes (words.map .target) (['-', '-'] :: words)

theorem IsPlain.ne {word : Text} (h : IsPlain word) (c : Char) (letters : Text) :
    word ≠ '-' :: c :: letters := by
  rintro rfl
  cases h with
  | inl h => cases h
  | inr h => exact h rfl

def IsPlaceable (parts : List Part) : Prop :=
  ∃ (front : List Part) (words : List Text), parts = front ++ words.map .target
    ∧ ∀ word, .target word ∈ front → IsPlain word

theorem exists_writes {parts : List Part} (hplaceable : IsPlaceable parts)
    (hchoices : ∀ choice, .choice choice ∈ parts → ∃ args, WritesChoices [choice] args)
    (htargets : ∀ word, .target word ∈ parts → word ≠ []) : ∃ args, Writes parts args := by
  rcases hplaceable with ⟨front, words, rfl, hplain⟩
  induction front with
  | nil =>
    exact ⟨_, .ended fun word hword => htargets word (List.mem_map_of_mem hword)⟩
  | cons part front ih =>
    rw [List.cons_append] at hchoices htargets ⊢
    rcases ih (fun word h => hplain word (List.mem_cons_of_mem _ h))
      (fun choice h => hchoices choice (List.mem_cons_of_mem _ h))
      (fun word h => htargets word (List.mem_cons_of_mem _ h)) with ⟨args, hargs⟩
    cases part with
    | choice choice =>
      rcases hchoices choice List.mem_cons_self with ⟨args', hargs'⟩
      exact ⟨args' ++ args, .choices hargs' hargs⟩
    | target word =>
      exact ⟨word :: args, .target (hplain word List.mem_cons_self)
        (htargets word List.mem_cons_self) hargs⟩

/-! ### Values -/

theorem Setting.Says.switch_eq {setting : Setting} {value : Text} {choice : Choice}
    (h : setting.Says value choice) : choice.switch = .setting setting := by
  cases h <;> rfl

theorem Setting.Says.ne_nil {setting : Setting} {value : Text} {choice : Choice}
    (h : setting.Says value choice) : value ≠ [] := by
  cases h with
  | root h => exact h
  | output format => cases format <;> exact List.cons_ne_nil _ _
  | config h => exact h
  | depth h =>
    cases h with
    | plain zeros => exact List.append_ne_nil_of_right_ne_nil _ (Text.toDigits_ne_nil 10 _)
    | signed zeros => exact List.cons_ne_nil _ _

theorem readPath_of_ne_nil (label : String) {value : Text} (h : value ≠ []) :
    readPath label value = .ok (Path.ofText value) := by
  rw [readPath, if_neg h]
  rfl

theorem readFormat_name (format : OutputFormat) :
    readFormat format.name.toList = .ok format := by
  cases format <;> rfl

theorem depthOfDigits_eq_ok {digits : Text} (hdigits : ∀ c ∈ digits, c.isDigit = true) (n : Nat)
    (h : Nat.ofDigitChars 10 digits n < Nat.pow 2 64) :
    depthOfDigits n digits = .ok (Nat.ofDigitChars 10 digits n) := by
  induction digits generalizing n with
  | nil => rw [depthOfDigits, Nat.ofDigitChars_nil]
  | cons c digits ih =>
    rw [List.forall_mem_cons] at hdigits
    rw [Nat.ofDigitChars_cons, Nat.mul_comm 10 n] at h ⊢
    have hle : n * 10 + (c.toNat - '0'.toNat)
        ≤ Nat.ofDigitChars 10 digits (n * 10 + (c.toNat - '0'.toNat)) := by
      rw [Nat.ofDigitChars_eq_ofDigitChars_zero]
      apply Nat.le_trans _ (Nat.le_add_right _ _)
      exact Nat.le_mul_of_pos_left _ (Nat.pow_pos (by decide))
    have hfits : fits 64 (n * 10 + (c.toNat - 0x30)) = true :=
      decide_eq_true (Nat.lt_of_le_of_lt hle h)
    rw [depthOfDigits, hdigits.1, Bool.not_true, if_neg Bool.false_ne_true]
    dsimp only
    rw [if_pos hfits]
    exact ih hdigits.2 _ h

theorem isDigit_of_mem_paddedDigits {zeros n : Nat} {c : Char} (h : c ∈ paddedDigits zeros n) :
    c.isDigit = true := by
  cases List.mem_append.1 h with
  | inl hzero =>
    rw [List.eq_of_mem_replicate hzero]
    rfl
  | inr hdigit => exact Text.isDigit_of_mem_toDigits hdigit

theorem depthOfDigits_paddedDigits {n : Nat} (zeros : Nat) (hn : n < Nat.pow 2 64) :
    depthOfDigits 0 (paddedDigits zeros n) = .ok n := by
  have hvalue : Nat.ofDigitChars 10 (paddedDigits zeros n) 0 = n := by
    rw [paddedDigits, Nat.ofDigitChars_append, Nat.ofDigitChars_replicate_zero, Nat.mul_zero,
      Text.toDigits, Nat.ofDigitChars_ten_toDigits]
  rw [depthOfDigits_eq_ok (fun _ => isDigit_of_mem_paddedDigits) 0 (by rwa [hvalue]), hvalue]

theorem exists_paddedDigits_eq_cons (zeros n : Nat) :
    ∃ c digits, paddedDigits zeros n = c :: digits ∧ c ≠ '+' := by
  cases h : paddedDigits zeros n with
  | nil =>
    rw [paddedDigits, List.append_eq_nil_iff] at h
    exact absurd h.2 (Text.toDigits_ne_nil 10 n)
  | cons c digits =>
    refine ⟨c, digits, rfl, ?_⟩
    rintro rfl
    have hmem : '+' ∈ paddedDigits zeros n := h ▸ List.mem_cons_self
    exact absurd (isDigit_of_mem_paddedDigits hmem) (by decide)

theorem readDepth_of_writesCount {n : Nat} {value : Text} (h : WritesCount n value)
    (hn : n < Nat.pow 2 64) : readDepth value = .ok n := by
  cases h with
  | plain zeros =>
    rcases exists_paddedDigits_eq_cons zeros n with ⟨c, digits, hdigits, hplus⟩
    rw [← depthOfDigits_paddedDigits zeros hn, hdigits]
    -- A number without a sign is read by the last of the cases.
    rw [readDepth]
    · exact List.cons_ne_nil c digits
    · exact fun h => hplus (List.cons.inj h).1
    · exact fun _ h => hplus (List.cons.inj h).1
  | signed zeros =>
    rcases exists_paddedDigits_eq_cons zeros n with ⟨c, digits, hdigits, hplus⟩
    rw [← depthOfDigits_paddedDigits zeros hn, hdigits]
    rfl

end ComponentTree.CommandLine
