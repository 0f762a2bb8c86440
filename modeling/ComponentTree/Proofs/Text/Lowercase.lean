import Mathlib.Data.List.Chain
import Mathlib.Data.List.TakeWhile
import ComponentTree.Text.Lowercase

/-!
This module contains what lowercasing does to text as a whole: where a text may be lowercased in two
parts, that lowercased text stays as it is, and that hyphens are neither lost nor added.
-/

namespace ComponentTree.Text

/-! ### Small letters -/

def lacksCapitals (first last : Nat) (alternate : Bool) : List CaseRun → Bool
  | [] => true
  | run :: runs =>
    last < run.first ||
      (run.last < first || run.step = 2 && alternate && (first + run.first) % 2 = 1) &&
        lacksCapitals first last alternate runs

theorem smallLetter?_of_lacksCapitals {first last code : Nat} {alternate : Bool}
    {runs : List CaseRun} (h : lacksCapitals first last alternate runs = true)
    (hfirst : first ≤ code) (hlast : code ≤ last) (heven : alternate → (code - first) % 2 = 0) :
    smallLetter? runs code = none := by
  induction runs with
  | nil => rfl
  | cons run runs ih =>
    simp only [lacksCapitals, Bool.or_eq_true, Bool.and_eq_true, decide_eq_true_eq] at h
    rw [smallLetter?]
    split
    next => rfl
    next hrun =>
      -- The search ends at the first run above `code`, and those up to there hold no `code`.
      rcases h with hbelow | ⟨habove, hruns⟩
      · omega
      · have hnone : run.image? code = none := by
          apply if_neg
          rintro ⟨-, hle, hstep⟩
          rcases habove with habove | ⟨⟨htwo, halternate⟩, hodd⟩
          · omega
          · have := heven halternate
            rw [htwo] at hstep
            omega
        rw [hnone, ih hruns]
        rfl

theorem lacksCapitals_of_mem {run : CaseRun} (h : run ∈ lowercaseRuns) :
    0x2D < run.image ∧
      (run.image + (run.last - run.first) < 0x130 ∨ 0x130 < run.image) ∧
      lacksCapitals run.image (run.image + (run.last - run.first))
        (run.step = 2 || run.first = run.last) lowercaseRuns = true := by
  have hall : (lowercaseRuns.all fun run => 0x2D < run.image &&
      (run.image + (run.last - run.first) < 0x130 || 0x130 < run.image) &&
      lacksCapitals run.image (run.image + (run.last - run.first))
        (run.step = 2 || run.first = run.last) lowercaseRuns) = true := by
    decide +kernel
  have := List.all_eq_true.1 hall run h
  simpa [and_assoc] using this

theorem exists_run_of_smallLetter? {runs : List CaseRun} {code small : Nat}
    (h : smallLetter? runs code = some small) : ∃ run ∈ runs, run.image? code = some small := by
  induction runs with
  | nil => cases h
  | cons run runs ih =>
    rw [smallLetter?] at h
    split at h
    next => cases h
    next =>
      cases himage : run.image? code with
      | some small' =>
        rw [himage] at h
        cases h
        exact ⟨run, List.mem_cons_self, himage⟩
      | none =>
        rw [himage] at h
        rcases ih h with ⟨run', hrun', himage'⟩
        exact ⟨run', List.mem_cons_of_mem run hrun', himage'⟩

theorem smallLetter?_smallLetter {code small : Nat}
    (h : smallLetter? lowercaseRuns code = some small) :
    0x2D < small ∧ small ≠ 0x130 ∧ smallLetter? lowercaseRuns small = none := by
  rcases exists_run_of_smallLetter? h with ⟨run, hrun, himage⟩
  rcases lacksCapitals_of_mem hrun with ⟨hhyphen, hdotted, hlacks⟩
  rw [CaseRun.image?] at himage
  split at himage
  next hcode =>
    rcases hcode with ⟨hfirst, hlast, hstep⟩
    cases himage
    refine ⟨by omega, by omega, smallLetter?_of_lacksCapitals hlacks (by omega) (by omega) ?_⟩
    intro halternate
    rw [Nat.add_sub_cancel_left]
    simp only [Bool.or_eq_true, decide_eq_true_eq] at halternate
    rcases halternate with htwo | hsingle
    · rwa [htwo] at hstep
    · omega
  next => cases himage

def IsSmall (c : Char) : Prop :=
  lowercaseChar c = [c]

instance (c : Char) : Decidable (IsSmall c) :=
  inferInstanceAs (Decidable (lowercaseChar c = [c]))

theorem toNat_ofNat_or (code : Nat) :
    (Char.ofNat code).toNat = code ∨ Char.ofNat code = '\x00' := by
  by_cases h : code.isValidChar
  · left
    have hof : Char.ofNat code = Char.ofNatAux code h := dif_pos h
    rw [hof]
    rfl
  · exact .inr (dif_neg h)

theorem isSmall_of_mem_lowercaseChar {c d : Char} (h : d ∈ lowercaseChar c) : IsSmall d := by
  rw [lowercaseChar] at h
  split at h
  next =>
    have hdotted : ∀ d ∈ ['i', '\u0307'], IsSmall d :=
      List.forall_mem_cons.2 ⟨by decide, List.forall_mem_singleton.2 (by decide)⟩
    exact hdotted d h
  next hc =>
    split at h
    next small hsmall =>
      rcases smallLetter?_smallLetter hsmall with ⟨-, hdotted, hnone⟩
      obtain rfl := List.mem_singleton.1 h
      rcases toNat_ofNat_or small with heq | heq
      · have hne : Char.ofNat small ≠ 'İ' := by
          intro hne
          rw [hne] at heq
          exact hdotted heq.symm
        rw [IsSmall, lowercaseChar, if_neg hne, heq, hnone]
      · rw [heq]
        decide
    next hnone =>
      obtain rfl := List.mem_singleton.1 h
      rw [IsSmall, lowercaseChar, if_neg hc, hnone]

theorem count_lowercaseChar (c : Char) : (lowercaseChar c).count '-' = [c].count '-' := by
  rw [lowercaseChar]
  split
  next hc =>
    subst hc
    decide
  next =>
    split
    next small hsmall =>
      have hhyphen : 0x2D < small := (smallLetter?_smallLetter hsmall).1
      have hne : Char.ofNat small ≠ '-' := by
        intro hne
        rcases toNat_ofNat_or small with heq | heq
        · rw [hne] at heq
          exact absurd heq (Nat.ne_of_lt hhyphen)
        · rw [hne] at heq
          exact absurd heq (by decide)
      have hc : c ≠ '-' := by
        rintro rfl
        have hnone : smallLetter? lowercaseRuns '-'.toNat = none := by decide
        rw [hnone] at hsmall
        cases hsmall
      rw [List.count_singleton, List.count_singleton]
      simp [hne, hc]
    next => rfl

/-! ### Lowercased text -/

theorem isSmall_of_mem_go {text : Text} {afterCased : Bool} {d : Char}
    (h : d ∈ lowercase.go afterCased text) : IsSmall d := by
  induction text generalizing afterCased with
  | nil => cases h
  | cons c text ih =>
    rw [lowercase.go, List.mem_append] at h
    rcases h with hd | hd
    · split at hd
      next =>
        have hfinal : IsSmall 'ς' := by decide
        have hinner : IsSmall 'σ' := by decide
        rw [List.mem_singleton] at hd
        split at hd
        · exact hd ▸ hfinal
        · exact hd ▸ hinner
      next => exact isSmall_of_mem_lowercaseChar hd
    · exact ih hd

theorem isSmall_of_mem_lowercase {text : Text} {d : Char} (h : d ∈ lowercase text) : IsSmall d :=
  isSmall_of_mem_go h

theorem go_of_isSmall {text : Text} (h : ∀ c ∈ text, IsSmall c) (afterCased : Bool) :
    lowercase.go afterCased text = text := by
  induction text generalizing afterCased with
  | nil => rfl
  | cons c text ih =>
    rw [List.forall_mem_cons] at h
    have hne : c ≠ 'Σ' := by
      rintro rfl
      exact absurd h.1 (by decide)
    rw [lowercase.go, if_neg hne, h.1, ih h.2, List.singleton_append]

theorem lowercase_lowercase (text : Text) : (lowercase text).lowercase = lowercase text :=
  go_of_isSmall (fun _ => isSmall_of_mem_lowercase) false

theorem count_go (text : Text) (afterCased : Bool) :
    (lowercase.go afterCased text).count '-' = text.count '-' := by
  induction text generalizing afterCased with
  | nil => rfl
  | cons c text ih =>
    have hcons : (c :: text).count '-' = [c].count '-' + text.count '-' := by
      rw [← List.count_append, List.singleton_append]
    rw [lowercase.go, List.count_append, ih, hcons]
    congr 1
    split
    next hc =>
      subst hc
      split <;> decide
    next => exact count_lowercaseChar c

theorem count_lowercase (text : Text) : (lowercase text).count '-' = text.count '-' :=
  count_go text false

/-! ### Lowercasing in parts -/

def IsBarrier (c : Char) : Prop :=
  isCaseIgnorable c = false ∧ c ≠ 'Σ'

instance (c : Char) : Decidable (IsBarrier c) :=
  inferInstanceAs (Decidable (_ ∧ _))

theorem startsCased_append {text : Text} (rest : Text) (h : ∃ c ∈ text, isCaseIgnorable c = false) :
    startsCased (text ++ rest) = startsCased text := by
  have hne : text.dropWhile isCaseIgnorable ≠ [] := by
    rcases h with ⟨c, hc, hbarrier⟩
    intro hnil
    rw [List.dropWhile_eq_nil_iff] at hnil
    rw [hnil c hc] at hbarrier
    cases hbarrier
  unfold startsCased
  rw [List.dropWhile_append, if_neg (by simpa using hne)]
  cases hdrop : text.dropWhile isCaseIgnorable with
  | nil => exact absurd hdrop hne
  | cons c rest => rfl

theorem go_cons {c : Char} (h : IsBarrier c) (afterCased : Bool) (text : Text) :
    lowercase.go afterCased (c :: text) = lowercaseChar c ++ lowercase.go (isCased c) text := by
  rw [lowercase.go, if_neg h.2, h.1]
  rfl

theorem go_append_cons {c : Char} (h : IsBarrier c) (before rest : Text) (afterCased : Bool) :
    lowercase.go afterCased (before ++ c :: rest)
      = lowercase.go afterCased (before ++ [c]) ++ lowercase.go (isCased c) rest := by
  induction before generalizing afterCased with
  | nil =>
    rw [List.nil_append, List.nil_append, go_cons h, go_cons h, lowercase.go, List.append_nil]
  | cons b before ih =>
    -- What decides about a sigma in `before` stands no further than at `c`.
    have hcased : startsCased (before ++ c :: rest) = startsCased (before ++ [c]) := by
      rw [← List.singleton_append, ← List.append_assoc]
      exact startsCased_append rest ⟨c, by simp, h.1⟩
    rw [List.cons_append, List.cons_append, lowercase.go, lowercase.go, hcased, ih,
      List.append_assoc]

theorem lowercase_append {front back : Text} (hfront : ∀ c ∈ front.getLast?, IsBarrier c)
    (hback : ∀ c ∈ back.head?, IsBarrier c) :
    lowercase (front ++ back) = lowercase front ++ lowercase back := by
  cases hlast : front.getLast? with
  | none =>
    rw [List.getLast?_eq_none_iff.1 hlast]
    rfl
  | some c =>
    rcases List.getLast?_eq_some_iff.1 hlast with ⟨before, rfl⟩
    have hc := hfront c hlast
    cases back with
    | nil => simp [lowercase, lowercase.go]
    | cons d back =>
      have hd := hback d rfl
      unfold lowercase
      rw [List.append_assoc, List.singleton_append, go_append_cons hc, go_cons hd, go_cons hd]

theorem lowercase_intercalate {sep : Text} {parts : List Text} (hsep : ∀ c ∈ sep, IsBarrier c)
    (hparts : parts.IsChain fun part next =>
      (∃ c ∈ part.getLast?, IsBarrier c) ∧ ∃ c ∈ next.head?, IsBarrier c) :
    lowercase (sep.intercalate parts) = (lowercase sep).intercalate (parts.map lowercase) := by
  induction parts with
  | nil => rfl
  | cons part parts ih =>
    cases parts with
    | nil => simp
    | cons next parts =>
      rw [List.isChain_cons_cons] at hparts
      obtain ⟨⟨⟨c, hc, hlast⟩, d, hd, hhead⟩, hparts⟩ := hparts
      obtain ⟨next, rfl⟩ := List.head?_eq_some_iff.1 hd
      have hfront : ∀ x ∈ (part ++ sep).getLast?, IsBarrier x := by
        intro x hx
        rw [List.getLast?_append, Option.mem_def, Option.or_eq_some_iff] at hx
        rcases hx with hx | ⟨-, hx⟩
        · exact hsep x (List.mem_of_getLast? hx)
        · obtain rfl := Option.some.inj (hc.symm.trans hx)
          exact hlast
      have hback : ∀ x ∈ (sep.intercalate ((d :: next) :: parts)).head?, IsBarrier x := by
        rw [List.intercalate_cons_cons_left]
        rintro x ⟨⟩
        exact hhead
      have hpart : ∀ x ∈ part.getLast?, IsBarrier x := by
        intro x hx
        obtain rfl := Option.some.inj (hc.symm.trans hx)
        exact hlast
      rw [List.intercalate_cons_cons, lowercase_append hfront hback,
        lowercase_append hpart fun x hx => hsep x (List.mem_of_mem_head? hx), ih hparts]
      simp

/-! ### ASCII letters -/

theorem isAlpha_iff {c : Char} : c.isAlpha = true ↔ c.isUpper = true ∨ c.isLower = true :=
  Bool.or_eq_true_iff

theorem toNat_lt_of_isAlpha {c : Char} (h : c.isAlpha = true) : c.toNat < 0x80 := by
  have hZ : 'Z'.toNat = 0x5A := rfl
  have hz : 'z'.toNat = 0x7A := rfl
  rcases isAlpha_iff.1 h with hupper | hlower
  · have : c.toNat ≤ 'Z'.toNat := (of_decide_eq_true hupper).2
    omega
  · have : c.toNat ≤ 'z'.toNat := of_decide_eq_true (Bool.and_eq_true_iff.1 hlower).2
    omega

theorem of_isAlpha {p : Char → Prop} {c : Char} (h : c.isAlpha = true)
    (hp : ∀ code < 0x80, (Char.ofNat code).isAlpha = true → p (Char.ofNat code)) : p c := by
  have := hp c.toNat (toNat_lt_of_isAlpha h)
  rw [Char.ofNat_toNat] at this
  exact this h

theorem isBarrier_of_isAlpha {c : Char} (h : c.isAlpha = true) : IsBarrier c := by
  apply of_isAlpha h
  decide +kernel

theorem isUpper_of_isSmall {c : Char} (h : IsSmall c) : c.isUpper = false := by
  rw [← Bool.not_eq_true]
  intro hupper
  have hcapital : c.isUpper = true → ¬IsSmall c := by
    apply of_isAlpha (isAlpha_iff.2 (.inl hupper))
    decide +kernel
  exact hcapital hupper h

end ComponentTree.Text
