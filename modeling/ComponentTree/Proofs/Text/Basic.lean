import ComponentTree.Text.Basic

/-!
This module contains how the decimal digits of a number are read back, that they start with a zero
for zero only, and what it means that a text spells tokens for a reader: the reader takes them off
the front of every text that starts with it. Such texts can be joined, which is how the printed form
of a document is followed from the inside out.
-/

namespace ComponentTree.Text

/-! ### Digits -/

section Digits

variable {n : Nat} {c : Char} {digits : Text}

theorem digit?_ten_of_isDigit (h : c.isDigit = true) :
    digit? 10 c = some (c.toNat - '0'.toNat) := by
  have hrange := Char.isDigit_iff_toNat.1 h
  have hlt : c.toNat - 0x30 < 10 := by
    have hnine : '9'.toNat = 0x39 := rfl
    omega
  rw [digit?, if_pos h]
  exact if_pos hlt

theorem foldlM_digit?_ten (h : ∀ c ∈ digits, c.isDigit = true) (n : Nat) :
    digits.foldlM (fun n c => (digit? 10 c).map (n * 10 + ·)) n
      = some (Nat.ofDigitChars 10 digits n) := by
  induction digits generalizing n with
  | nil => rfl
  | cons c digits ih =>
    rw [List.forall_mem_cons] at h
    rw [List.foldlM_cons, digit?_ten_of_isDigit h.1, Option.map_some, Nat.ofDigitChars_cons,
      Nat.mul_comm 10 n]
    exact ih h.2 _

theorem isDigit_of_mem_toDigits (h : c ∈ toDigits 10 n) : c.isDigit = true :=
  Nat.isDigit_of_mem_toDigits (by decide) (by decide) h

theorem toDigits_ne_nil (base n : Nat) : toDigits base n ≠ [] :=
  Nat.toDigits_ne_nil

theorem ofDigits?_toDigits (n : Nat) : ofDigits? 10 (toDigits 10 n) = some n := by
  rw [ofDigits?, if_neg (toDigits_ne_nil 10 n),
    foldlM_digit?_ten (fun _ => isDigit_of_mem_toDigits) 0, toDigits, Nat.ofDigitChars_ten_toDigits]

theorem head?_toDigits_ne_zero (h : 0 < n) : (toDigits 10 n).head? ≠ some '0' := by
  induction n using Nat.strongRecOn with
  | ind n ih =>
    by_cases hlt : n < 10
    · rw [toDigits, Nat.toDigits_of_lt_base hlt, List.head?_cons, ne_eq, Option.some.injEq,
        Nat.digitChar_eq_zero]
      omega
    · have hfront := ih (n / 10) (by omega) (by omega)
      rw [toDigits, Nat.toDigits_of_base_le (by decide) (Nat.not_lt.1 hlt)]
      cases hdigits : Nat.toDigits 10 (n / 10) with
      | nil => exact absurd hdigits Nat.toDigits_ne_nil
      | cons c digits =>
        rw [toDigits, hdigits] at hfront
        exact hfront

end Digits

/-! ### Spelling -/

variable {Token : Type} {tokens? : Text → Option (List Token)}

def Spells (tokens? : Text → Option (List Token)) (text : Text) (tokens : List Token) : Prop :=
  ∀ rest, tokens? (text ++ rest) = (tokens? rest).map (tokens ++ ·)

namespace Spells

variable {text text' : Text} {tokens tokens' : List Token}

theorem nil : Spells tokens? [] [] := by
  intro rest
  simp

theorem append (h : Spells tokens? text tokens) (h' : Spells tokens? text' tokens') :
    Spells tokens? (text ++ text') (tokens ++ tokens') := by
  intro rest
  rw [List.append_assoc, h, h', Option.map_map]
  simp only [List.append_assoc, Function.comp_def]

theorem tokens?_eq (h : Spells tokens? text tokens) (hnil : tokens? [] = some []) :
    tokens? text = some tokens := by
  have := h []
  rw [List.append_nil, hnil] at this
  simpa using this

end Spells

end ComponentTree.Text
