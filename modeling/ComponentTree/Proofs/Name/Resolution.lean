import Mathlib.Data.List.Find
import ComponentTree.CandidateSet
import ComponentTree.Proofs.Name.Forms

/-!
This module contains how the kebab form of a name, taken as a name itself, is resolved, and how the
file that it leads to is related to the one that the name leads to.
-/

namespace ComponentTree

namespace Name

theorem transitions_eq_zero {name : Name} (h : ∀ c ∈ name, c.isUpper = false) :
    name.transitions = 0 := by
  rw [transitions, List.countP_eq_zero]
  rintro ⟨c, d⟩ hcd
  have hd : d ∈ name := List.mem_of_mem_tail (List.of_mem_zip hcd).2
  simp [isTransition, h d hd]

theorem kebab_eq_plain {name : Name} (h : name.transitions = 0) : name.kebab = name.plain := by
  rw [kebab, plain, hyphenate_of_transitions_eq_zero h]

theorem plain_kebab (name : Name) : name.kebab.plain = name.kebab :=
  Text.lowercase_lowercase name.hyphenate

theorem kebab_kebab (name : Name) : name.kebab.kebab = name.kebab := by
  have hsmall : ∀ c ∈ name.kebab, c.isUpper = false := fun c hc =>
    Text.isUpper_of_isSmall (Text.isSmall_of_mem_lowercase hc)
  rw [kebab_eq_plain (transitions_eq_zero hsmall), plain_kebab]

end Name

namespace CandidateSet

def firstWithStem? (set : CandidateSet) (stem : Text) : Option Path :=
  set.files.find? fun file => set.stem? file = some stem

variable {set : CandidateSet} {name : Name}

def carries (set : CandidateSet) (name : Name) (file : Path) : Bool :=
  (set.stem? file).any name.isCarriedBy

theorem carries_iff {file : Path} : set.carries name file = true ↔
    set.stem? file = some name.kebab ∨ set.stem? file = some name.plain := by
  unfold carries
  cases set.stem? file with
  | none => simp
  | some stem => simp [Name.isCarriedBy]

theorem resolve?_eq_find?_carries : set.resolve? name = set.files.find? (set.carries name) := rfl

theorem resolve?_of_kebab_eq_plain (h : name.kebab = name.plain) :
    set.resolve? name = set.firstWithStem? name.kebab := by
  rw [resolve?_eq_find?_carries, firstWithStem?]
  congr 1
  funext file
  rw [Bool.eq_iff_iff, carries_iff, ← h, or_self, decide_eq_true_eq]

theorem resolve?_kebab : set.resolve? name.kebab = set.firstWithStem? name.kebab := by
  have h : name.kebab.kebab = name.kebab.plain := by rw [name.kebab_kebab, name.plain_kebab]
  rw [resolve?_of_kebab_eq_plain h, name.kebab_kebab]

theorem find?_carries {files : List Path}
    (h : ∀ file ∈ files, set.stem? file ≠ some name.kebab) :
    files.find? (set.carries name) = files.find? fun file => set.stem? file = some name.plain := by
  apply List.find?_congr
  intro file hfile
  rw [Bool.eq_iff_iff, carries_iff, or_iff_right (h file hfile), decide_eq_true_eq]

theorem resolve?_of_firstWithStem?_eq_none (h : set.firstWithStem? name.kebab = none) :
    set.resolve? name = set.firstWithStem? name.plain := by
  rw [firstWithStem?, List.find?_eq_none] at h
  apply find?_carries
  intro file hfile
  simpa using h file hfile

theorem exists_of_firstWithStem? {file : Path} (h : set.firstWithStem? name.kebab = some file) :
    ∃ before after found, set.files = before ++ file :: after ∧ set.resolve? name = some found ∧
      (found ∈ before ∧ set.stem? found = some name.plain ∨
        found = file ∧ ∀ other ∈ before, set.stem? other ≠ some name.plain) := by
  rcases List.find?_eq_some_iff_append.1 h with ⟨hfile, before, after, hfiles, hbefore⟩
  rw [decide_eq_true_eq] at hfile
  have hplain : before.find? (set.carries name)
      = before.find? fun other => set.stem? other = some name.plain := by
    apply find?_carries
    intro other hother
    simpa using hbefore other hother
  refine ⟨before, after, ?_⟩
  rw [resolve?_eq_find?_carries, hfiles, List.find?_append, hplain]
  cases hfound : before.find? fun other => set.stem? other = some name.plain with
  | some found =>
    refine ⟨found, rfl, rfl, .inl ⟨List.mem_of_find?_eq_some hfound, ?_⟩⟩
    simpa using List.find?_some hfound
  | none =>
    refine ⟨file, rfl, ?_, .inr ⟨rfl, ?_⟩⟩
    · rw [Option.none_or, List.find?_cons_of_pos (carries_iff.2 (.inl hfile))]
    · simpa using hfound

theorem resolve?_kebab_and_resolve? (set : CandidateSet) (name : Name) :
    name.kebab.kebab = name.kebab ∧
    set.resolve? name.kebab = set.firstWithStem? name.kebab ∧
    (∀ file, set.resolve? name.kebab = some file →
      ∃ before after found, set.files = before ++ file :: after ∧ set.resolve? name = some found ∧
        (found ∈ before ∧ set.stem? found = some name.plain ∨
          found = file ∧ ∀ other ∈ before, set.stem? other ≠ some name.plain)) ∧
    (set.resolve? name.kebab = none → set.resolve? name = set.firstWithStem? name.plain) ∧
    (name.transitions = 0 → set.resolve? name = set.resolve? name.kebab) := by
  refine ⟨name.kebab_kebab, resolve?_kebab, ?_, ?_, ?_⟩
  · intro file h
    rw [resolve?_kebab] at h
    exact exists_of_firstWithStem? h
  · intro h
    rw [resolve?_kebab] at h
    exact resolve?_of_firstWithStem?_eq_none h
  · intro h
    rw [resolve?_kebab, resolve?_of_kebab_eq_plain (Name.kebab_eq_plain h)]

def pascalFile : Path := Path.ofText "/a/FooBar.vue".toList

def kebabFile : Path := Path.ofText "/b/foo-bar.vue".toList

def bothForms : CandidateSet :=
  ofList "vue".toList [pascalFile, kebabFile]

theorem resolve?_kebab_and_resolve?_bothForms :
    bothForms.resolve? (Name.kebab "FooBar".toList) = some kebabFile ∧
      (∃ before after, bothForms.files = before ++ kebabFile :: after ∧ pascalFile ∈ before ∧
        bothForms.stem? pascalFile = some (Name.plain "FooBar".toList)) ∧
      bothForms.resolve? (Name.kebab "FooFoo".toList) = none ∧
      bothForms.resolve? "FooFoo".toList
        = bothForms.firstWithStem? (Name.plain "FooFoo".toList) ∧
      Name.transitions "FOOBAR".toList = 0 ∧
      bothForms.resolve? "FOOBAR".toList = bothForms.resolve? (Name.kebab "FOOBAR".toList) := by
  have hkebab : bothForms.resolve? (Name.kebab "FooBar".toList) = some kebabFile := by
    decide +kernel
  have hpascal : bothForms.resolve? "FooBar".toList = some pascalFile := by decide +kernel
  have hnone : bothForms.resolve? (Name.kebab "FooFoo".toList) = none := by decide +kernel
  have htransitions : Name.transitions "FOOBAR".toList = 0 := by decide +kernel
  refine ⟨hkebab, ?_, hnone, ?_, htransitions, ?_⟩
  · rcases (resolve?_kebab_and_resolve? bothForms "FooBar".toList).2.2.1 kebabFile hkebab
      with ⟨before, after, found, hfiles, hfound, h⟩
    obtain rfl : pascalFile = found := Option.some.inj (hpascal.symm.trans hfound)
    rcases h with ⟨hmem, hstem⟩ | ⟨heq, -⟩
    · exact ⟨before, after, hfiles, hmem, hstem⟩
    · exact absurd heq (by decide)
  · exact (resolve?_kebab_and_resolve? bothForms _).2.2.2.1 hnone
  · exact (resolve?_kebab_and_resolve? bothForms _).2.2.2.2 htransitions

end CandidateSet

end ComponentTree
