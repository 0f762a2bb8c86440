import Mathlib.Data.Finset.Dedup
import Mathlib.Data.Finset.Insert
import Mathlib.Data.List.Forall2
import Mathlib.Data.List.Induction
import ComponentTree.Proofs.Name.Resolution

/-!
This module contains what a candidate set is after any insertions: it has the first spelling of each
path, in the order of the insertions, and a name leads to the first inserted file that carries it.
Which files come later, and which spelling of a path is kept, makes no difference to that.
-/

namespace ComponentTree

theorem Path.fileName?_congr {p q : Path} (h : p.Same q) : p.fileName? = q.fileName? := by
  rw [fileName?, fileName?, h]

namespace CandidateSet

variable {set : CandidateSet} {extension : Text} {paths others : List Path} {p q : Path}
  {name : Name}

def insertAll (set : CandidateSet) (paths : List Path) : CandidateSet :=
  paths.foldl insert set

theorem ofList_eq_insertAll (extension : Text) (paths : List Path) :
    ofList extension paths = (empty extension).insertAll paths := rfl

theorem insertAll_append (set : CandidateSet) (paths others : List Path) :
    set.insertAll (paths ++ others) = (set.insertAll paths).insertAll others :=
  List.foldl_append

theorem insertAll_cons (set : CandidateSet) (p : Path) (paths : List Path) :
    set.insertAll (p :: paths) = (set.insert p).insertAll paths := rfl

theorem ofList_append_singleton (extension : Text) (paths : List Path) (p : Path) :
    ofList extension (paths ++ [p]) = (ofList extension paths).insert p :=
  insertAll_append _ _ _

/-! ### One insertion -/

theorem contains_iff_exists_same : set.contains p = true ↔ ∃ file ∈ set.files, file.Same p := by
  rw [contains_iff, List.mem_map]
  rfl

theorem insert?_isSome_iff :
    (set.insert? p).isSome = true ↔ ∀ file ∈ set.files, ¬file.Same p := by
  have hnone : (∀ file ∈ set.files, ¬file.Same p) ↔ ¬set.contains p = true := by
    rw [contains_iff_exists_same]
    simp
  rw [hnone, insert?]
  split
  next h => simp [h]
  next h => simp [h]

theorem insert_of_contains (h : set.contains p = true) : set.insert p = set := by
  rw [insert, insert?, dif_pos h, Option.getD_none]

theorem files_insert_of_not_contains (h : ¬set.contains p = true) :
    (set.insert p).files = set.files ++ [p] := by
  rw [insert, insert?, dif_neg h]
  rfl

@[simp] theorem extension_insert (set : CandidateSet) (p : Path) :
    (set.insert p).extension = set.extension := by
  by_cases h : set.contains p = true
  · rw [insert_of_contains h]
  · rw [insert, insert?, dif_neg h]
    rfl

theorem extension_insertAll (set : CandidateSet) (paths : List Path) :
    (set.insertAll paths).extension = set.extension := by
  induction paths generalizing set with
  | nil => rfl
  | cons p paths ih => rw [insertAll_cons, ih, extension_insert]

/-! ### The files that are kept -/

theorem files_ofList_eq_eraseDupsBy (extension : Text) (paths : List Path) :
    (ofList extension paths).files = paths.eraseDupsBy fun p q => p.Same q := by
  induction paths using List.reverseRecOn with
  | nil => rfl
  | append_singleton paths p ih =>
    have hany : ((ofList extension paths).files.any fun q => p.Same q)
        = (ofList extension paths).contains p := by
      rw [Bool.eq_iff_iff, contains_iff_exists_same, List.any_eq_true]
      apply exists_congr
      intro file
      rw [decide_eq_true_eq]
      exact and_congr_right' eq_comm
    rw [ofList_append_singleton, eraseDupsBy_append_singleton, ← ih, hany]
    split
    next h => rw [insert_of_contains h]
    next h => exact files_insert_of_not_contains h

theorem mem_of_mem_ofList (h : p ∈ (ofList extension paths).files) : p ∈ paths := by
  rw [files_ofList_eq_eraseDupsBy] at h
  exact mem_of_mem_eraseDupsBy h

theorem files_insertAll_of_nodup (set : CandidateSet)
    (h : ((set.files ++ paths).map Path.components).Nodup) :
    (set.insertAll paths).files = set.files ++ paths := by
  induction paths generalizing set with
  | nil => rw [List.append_nil, insertAll, List.foldl_nil]
  | cons p paths ih =>
    have hfresh : ¬set.contains p = true := by
      rw [contains_iff]
      intro hmem
      rw [List.map_append, List.nodup_append] at h
      exact h.2.2 _ hmem _ (by simp) rfl
    have hinsert := files_insert_of_not_contains hfresh
    rw [List.append_cons, ← hinsert] at h ⊢
    exact ih _ h

theorem files_ofList (extension : Text) (h : (paths.map Path.components).Nodup) :
    (ofList extension paths).files = paths :=
  files_insertAll_of_nodup (empty extension) h

theorem ofList_files (set : CandidateSet) : ofList set.extension set.files = set := by
  have hfiles : (ofList set.extension set.files).files = set.files :=
    files_ofList set.extension set.nodup
  have hextension : (ofList set.extension set.files).extension = set.extension :=
    extension_insertAll _ _
  cases set
  cases h : ofList _ _
  rw [h] at hfiles hextension
  dsimp only at hfiles hextension
  subst hfiles hextension
  rfl

/-! ### An index of the files -/

structure Indexed where
  files : List Path
  index : Finset (List Path.Component)

namespace Indexed

def insert? (s : Indexed) (p : Path) : Option Indexed :=
  if p.components ∈ s.index then none
  else some ⟨s.files ++ [p], Insert.insert p.components s.index⟩

def insertAll (s : Indexed) (paths : List Path) : Indexed :=
  paths.foldl (fun s p => (s.insert? p).getD s) s

end Indexed

def indexed (set : CandidateSet) : Indexed where
  files := set.files
  index := (set.files.map Path.components).toFinset

theorem insert?_indexed (set : CandidateSet) (p : Path) :
    set.indexed.insert? p = (set.insert? p).map indexed := by
  have hindex : p.components ∈ set.indexed.index ↔ set.contains p = true := by
    rw [contains_iff]
    exact List.mem_toFinset
  rw [Indexed.insert?, insert?]
  by_cases h : set.contains p = true
  · rw [if_pos (hindex.2 h), dif_pos h]
    rfl
  · have hadded : Insert.insert p.components set.indexed.index
        = ((set.files ++ [p]).map Path.components).toFinset := by
      ext components
      simp only [indexed, Finset.mem_insert, List.mem_toFinset, List.map_append,
        List.map_singleton, List.mem_append, List.mem_singleton]
      exact or_comm
    rw [if_neg (mt hindex.1 h), dif_neg h, hadded]
    rfl

theorem insertAll_indexed (set : CandidateSet) (paths : List Path) :
    set.indexed.insertAll paths = (set.insertAll paths).indexed := by
  induction paths generalizing set with
  | nil => rfl
  | cons p paths ih =>
    have hstep : (set.indexed.insert? p).getD set.indexed = (set.insert p).indexed := by
      rw [insert?_indexed, insert]
      cases set.insert? p with
      | none => rfl
      | some set' => rfl
    rw [insertAll_cons, ← ih, ← hstep]
    rfl

/-! ### Resolution -/

theorem carries_congr (name : Name) (h : p.Same q) : set.carries name p = set.carries name q := by
  rw [carries, carries, stem?, stem?, Path.fileName?_congr h]

theorem carries_of_extension_eq {other : CandidateSet} (h : set.extension = other.extension) :
    set.carries name = other.carries name := by
  funext p
  rw [carries, carries, stem?, stem?, h]

theorem resolve?_insert (set : CandidateSet) (p : Path) (name : Name) :
    (set.insert p).resolve? name
      = (set.resolve? name).or (if set.carries name p then some p else none) := by
  by_cases h : set.contains p = true
  · rw [insert_of_contains h]
    by_cases hp : set.carries name p = true
    · -- The spelling of `p` that is in the set carries the name as well.
      obtain ⟨file, hfile, hsame⟩ := contains_iff_exists_same.1 h
      have hsome : (set.resolve? name).isSome = true := by
        rw [resolve?_eq_find?_carries, List.find?_isSome]
        exact ⟨file, hfile, (carries_congr name hsame).trans hp⟩
      rw [Option.or_of_isSome hsome]
    · rw [if_neg hp, Option.or_none]
  · have hcarries : (set.insert p).carries name = set.carries name :=
      carries_of_extension_eq (extension_insert set p)
    rw [resolve?_eq_find?_carries, resolve?_eq_find?_carries, hcarries,
      files_insert_of_not_contains h, List.find?_append, List.find?_singleton]

theorem resolve?_insertAll (set : CandidateSet) (paths : List Path) (name : Name) :
    (set.insertAll paths).resolve? name
      = (set.resolve? name).or (paths.find? (set.carries name)) := by
  induction paths generalizing set with
  | nil => rw [List.find?_nil, Option.or_none, insertAll, List.foldl_nil]
  | cons p paths ih =>
    have hcarries : (set.insert p).carries name = set.carries name :=
      carries_of_extension_eq (extension_insert set p)
    rw [insertAll_cons, ih, resolve?_insert, Option.or_assoc, hcarries, List.find?_cons]
    cases set.carries name p with
    | true => rfl
    | false => rfl

theorem resolve?_insertAll_of_some {file : Path} (h : set.resolve? name = some file)
    (paths : List Path) : (set.insertAll paths).resolve? name = some file := by
  rw [resolve?_insertAll, h, Option.some_or]

theorem insert?_isSome_of_carries (h : set.resolve? name = none)
    (hp : set.carries name p = true) : (set.insert? p).isSome = true := by
  rw [resolve?_eq_find?_carries, List.find?_eq_none] at h
  rw [insert?_isSome_iff]
  intro file hfile hsame
  exact h file hfile ((carries_congr name hsame).trans hp)

theorem resolve?_insert_of_none (h : set.resolve? name = none) {file : Path} :
    (set.insert p).resolve? name = some file ↔
      file = p ∧ (set.insert? p).isSome = true ∧
        (set.stem? p = some name.kebab ∨ set.stem? p = some name.plain) := by
  rw [resolve?_insert, h, Option.none_or, ← carries_iff]
  constructor
  · intro hfile
    by_cases hp : set.carries name p = true
    · rw [if_pos hp, Option.some_inj] at hfile
      exact ⟨hfile.symm, insert?_isSome_of_carries h hp, hp⟩
    · rw [if_neg hp] at hfile
      cases hfile
  · rintro ⟨rfl, -, hp⟩
    rw [if_pos hp]

theorem resolve?_ofList (extension : Text) (paths : List Path) (name : Name) :
    (ofList extension paths).resolve? name = paths.find? ((empty extension).carries name) := by
  rw [ofList_eq_insertAll, resolve?_insertAll]
  exact Option.none_or

theorem find?_congr_of_forall₂ {f : Path → Bool} (hf : ∀ p q : Path, p.Same q → f p = f q)
    (h : List.Forall₂ Path.Same paths others) :
    (paths.find? f).map Path.components = (others.find? f).map Path.components := by
  induction h with
  | nil => rfl
  | @cons p q _ _ hpq _ ih =>
    rw [List.find?_cons, List.find?_cons, hf p q hpq]
    cases f q with
    | true => exact congrArg some hpq
    | false => exact ih

theorem resolve?_ofList_congr (extension : Text) (h : List.Forall₂ Path.Same paths others)
    (name : Name) : ((ofList extension paths).resolve? name).map Path.components
      = ((ofList extension others).resolve? name).map Path.components := by
  rw [resolve?_ofList, resolve?_ofList]
  exact find?_congr_of_forall₂ (fun _ _ => carries_congr name) h

theorem files_insertAll_and_resolve? (extension : Text) (paths pushed : List Path) :
    let set := (ofList extension paths).insertAll pushed
    set.files = ((paths ++ pushed).eraseDupsBy fun p q => p.Same q) ∧
    (∀ p, (set.insert? p).isSome = true ↔ ∀ file ∈ set.files, ¬file.Same p) ∧
    Indexed.insertAll ⟨[], ∅⟩ (paths ++ pushed) = set.indexed ∧
    (∀ p, set.indexed.insert? p = (set.insert? p).map indexed) ∧
    ofList extension set.files = set ∧
    (∀ name file, set.resolve? name = some file →
      ∀ others, (set.insertAll others).resolve? name = some file) ∧
    (∀ name, set.resolve? name = none → ∀ p file,
      (set.insert p).resolve? name = some file ↔ file = p ∧ (set.insert? p).isSome = true ∧
        (set.stem? p = some name.kebab ∨ set.stem? p = some name.plain)) ∧
    ∀ others, List.Forall₂ Path.Same (paths ++ pushed) others → ∀ name,
      (set.resolve? name).map Path.components
        = ((ofList extension others).resolve? name).map Path.components := by
  intro set
  have hset : set = ofList extension (paths ++ pushed) := (insertAll_append _ _ _).symm
  have hextension : set.extension = extension := hset ▸ extension_insertAll _ _
  refine ⟨hset ▸ files_ofList_eq_eraseDupsBy _ _, fun p => insert?_isSome_iff, ?_,
    insert?_indexed set, ?_, fun name file h others => resolve?_insertAll_of_some h others,
    fun name h p file => resolve?_insert_of_none h, ?_⟩
  · rw [hset]
    exact insertAll_indexed (empty extension) _
  · have := ofList_files set
    rwa [hextension] at this
  · intro others h name
    rw [hset]
    exact resolve?_ofList_congr extension h name

def oddSpellings : List Path :=
  [Path.ofText "/b/./foo-bar.vue/".toList, ⟨[0x2F, 0xFF, 0x2E, 0x76, 0x75, 0x65]⟩]

def otherSpellings : List Path :=
  [kebabFile, ⟨[0x2F, 0x2F, 0xFF, 0x2E, 0x76, 0x75, 0x65]⟩]

theorem files_insertAll_and_resolve?_oddSpellings :
    let set := (ofList "vue".toList oddSpellings).insertAll otherSpellings
    set.files = oddSpellings ∧
    (∃ file, set.resolve? "FooBar".toList = some file ∧
      (set.insertAll [pascalFile]).resolve? "FooBar".toList = some file) ∧
    set.resolve? "foobar".toList = none ∧
    (set.insert pascalFile).resolve? "foobar".toList = some pascalFile ∧
    List.Forall₂ Path.Same (oddSpellings ++ otherSpellings) (otherSpellings ++ oddSpellings) ∧
    (set.resolve? "FooBar".toList).map Path.components = some kebabFile.components := by
  intro set
  obtain ⟨hfiles, -, -, -, -, hstays, hnew, hspelled⟩ :=
    files_insertAll_and_resolve? "vue".toList oddSpellings otherSpellings
  have hfound : set.resolve? "FooBar".toList = oddSpellings.head? := by decide +kernel
  have hnone : set.resolve? "foobar".toList = none := by decide +kernel
  have hsame : List.Forall₂ Path.Same (oddSpellings ++ otherSpellings)
      (otherSpellings ++ oddSpellings) := by
    simp only [oddSpellings, otherSpellings, List.cons_append, List.nil_append,
      List.forall₂_cons, List.forall₂_nil_left_iff]
    decide +kernel
  refine ⟨hfiles.trans (by decide +kernel), ⟨_, hfound, hstays _ _ hfound _⟩, hnone, ?_, hsame, ?_⟩
  · exact (hnew _ hnone pascalFile pascalFile).2 ⟨rfl, by decide +kernel, by decide +kernel⟩
  · exact (hspelled _ hsame _).trans (by decide +kernel)

end CandidateSet

end ComponentTree
