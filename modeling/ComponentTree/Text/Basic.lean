/-!
This module contains the text type of the library and the readers that every reader of text is made
of: each takes something off the front of a text and hands back the rest. With them stand the digits
of natural numbers in bases up to sixteen, and sets of characters in the form in which the Unicode
standard lists the characters that have a property.
-/

namespace ComponentTree

abbrev Text := List Char

namespace Text

def after? : (word : Text) → (text : Text) → Option Text
  | [], text => some text
  | _ :: _, [] => none
  | w :: word, c :: text => if w = c then after? word text else none

theorem after?_eq_some_iff {word text rest : Text} :
    after? word text = some rest ↔ text = word ++ rest := by
  fun_induction after? word text with
  | case1 => simp [eq_comm]
  | case2 => simp
  | case3 w word text ih => simp [ih]
  | case4 w word c text h => simpa using fun h' => absurd h'.symm h

def upTo? (stop : Char → Bool) (text : Text) : Option (Text × Text) :=
  match text.dropWhile (!stop ·) with
  | [] => none
  | _ :: rest =>
    let run := text.takeWhile (!stop ·)
    if run = [] then none else some (run, rest)

theorem upTo?_eq_some {stop : Char → Bool} {text run rest : Text}
    (h : upTo? stop text = some (run, rest)) :
    ∃ c, stop c = true ∧ run ≠ [] ∧ (∀ x ∈ run, stop x = false) ∧ text = run ++ c :: rest := by
  unfold upTo? at h
  split at h
  next => simp at h
  next c rest' hdrop =>
    dsimp only at h
    split at h
    next => simp at h
    next hrun =>
      obtain ⟨rfl, rfl⟩ : text.takeWhile (!stop ·) = run ∧ rest' = rest := by simpa using h
      refine ⟨c, ?_, hrun, fun x hx => ?_, ?_⟩
      · have hc := List.head?_dropWhile_not (!stop ·) text
        rw [hdrop] at hc
        simpa using hc
      · simpa using List.all_eq_true.1 List.all_takeWhile x hx
      · rw [← hdrop, List.takeWhile_append_dropWhile]

theorem upTo?_append {stop : Char → Bool} {run rest : Text} {c : Char} (hne : run ≠ [])
    (hrun : ∀ x ∈ run, stop x = false) (hc : stop c = true) :
    upTo? stop (run ++ c :: rest) = some (run, rest) := by
  have hpass : ∀ x ∈ run, (!stop x) = true := fun x hx => by simp [hrun x hx]
  rw [upTo?, List.dropWhile_append_of_pos hpass, List.takeWhile_append_of_pos hpass]
  simp [hc, hne]

def before? (suffix text : Text) : Option Text :=
  (after? suffix.reverse text.reverse).map List.reverse

theorem before?_eq_some_iff {suffix text rest : Text} :
    before? suffix text = some rest ↔ text = rest ++ suffix := by
  simp only [before?, Option.map_eq_some_iff, after?_eq_some_iff]
  constructor
  · rintro ⟨front, h, rfl⟩
    simpa using congrArg List.reverse h
  · rintro rfl
    exact ⟨rest.reverse, by simp, by simp⟩

def unlines (lines : List Text) : Text :=
  lines.flatMap (· ++ ['\n'])

@[simp] theorem unlines_nil : unlines [] = [] := rfl

@[simp] theorem unlines_cons (line : Text) (lines : List Text) :
    unlines (line :: lines) = line ++ '\n' :: unlines lines := by
  simp [unlines]

@[simp] theorem unlines_append (a b : List Text) : unlines (a ++ b) = unlines a ++ unlines b := by
  simp [unlines]

def digit? (base : Nat) (c : Char) : Option Nat :=
  let value :=
    if c.isDigit then c.toNat - 0x30
    else if 'a' ≤ c ∧ c ≤ 'f' then c.toNat - 0x57
    else if 'A' ≤ c ∧ c ≤ 'F' then c.toNat - 0x37
    else base
  if value < base then some value else none

def ofDigits? (base : Nat) (text : Text) : Option Nat :=
  if text = [] then none else text.foldlM (fun n c => (digit? base c).map (n * base + ·)) 0

def toDigits (base n : Nat) : Text :=
  Nat.toDigits base n

abbrev CodeRanges := List (Nat × Nat)

def CodeRanges.has : CodeRanges → (code : Nat) → Bool
  | [], _ => false
  | (first, last) :: ranges, code =>
    if code < first then false else code ≤ last || CodeRanges.has ranges code

end Text

end ComponentTree
