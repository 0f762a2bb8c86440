import ComponentTree.Text.Basic

/-!
This module contains blank characters, those with the Unicode property `White_Space`, and what is
done with them: text is trimmed of them and read past them.
-/

namespace ComponentTree.Text

def blankRanges : CodeRanges :=
  [(0x9, 0xD), (0x20, 0x20), (0x85, 0x85), (0xA0, 0xA0), (0x1680, 0x1680), (0x2000, 0x200A),
   (0x2028, 0x2029), (0x202F, 0x202F), (0x205F, 0x205F), (0x3000, 0x3000)]

def isBlank (c : Char) : Bool :=
  blankRanges.has c.toNat

def trimStart (text : Text) : Text :=
  text.dropWhile isBlank

def trimEnd (text : Text) : Text :=
  (text.reverse.dropWhile isBlank).reverse

def trim (text : Text) : Text :=
  (trimStart text).trimEnd

def afterBlanks? : (text : Text) → Option Text
  | [] => none
  | c :: text => if isBlank c then some (trimStart text) else none

theorem trimStart_append_of_forall_isBlank {blanks : Text} (h : ∀ c ∈ blanks, isBlank c = true)
    (rest : Text) : trimStart (blanks ++ rest) = trimStart rest := by
  induction blanks with
  | nil => rfl
  | cons c blanks ih =>
    have hc : isBlank c = true := h c List.mem_cons_self
    simpa [trimStart, List.dropWhile_cons, hc] using ih fun x hx => h x (List.mem_cons_of_mem _ hx)

theorem afterBlanks?_eq_some {text rest : Text} (h : afterBlanks? text = some rest) :
    ∃ blanks, blanks ≠ [] ∧ (∀ c ∈ blanks, isBlank c = true) ∧ text = blanks ++ rest := by
  cases text with
  | nil => simp [afterBlanks?] at h
  | cons c text =>
    by_cases hc : isBlank c = true
    · obtain rfl : trimStart text = rest := by simpa [afterBlanks?, hc] using h
      refine ⟨c :: text.takeWhile isBlank, by simp, ?_, ?_⟩
      · intro x hx
        rcases List.mem_cons.1 hx with rfl | hx
        · exact hc
        · exact List.all_eq_true.1 List.all_takeWhile x hx
      · simp [trimStart, List.takeWhile_append_dropWhile]
    · simp [afterBlanks?, hc] at h

end ComponentTree.Text
