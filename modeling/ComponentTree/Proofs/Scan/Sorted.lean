import Mathlib.Data.List.Permutation
import ComponentTree.Proofs.CandidateSet.Insertions
import ComponentTree.Proofs.FileTree.Reordered
import ComponentTree.Scan

/-!
This module contains the candidates that a search finds. If entries are taken in the order of their
names, the candidates are in the order of their paths, and so do not depend on the order in which
directories list their entries.
-/

namespace ComponentTree

namespace ScanOptions

variable {α : Type} {options : ScanOptions}

theorem leavesOut_iff {name : Bytes} :
    options.leavesOut name = true ↔ Text.Utf8.decodeLossy name ∈ options.excluded :=
  List.contains_iff_mem

theorem takes_iff {name : Bytes} :
    options.takes name = true ↔ '.' :: options.extension <:+ Text.Utf8.decodeLossy name := by
  rw [takes, Option.isSome_iff_exists]
  apply exists_congr
  intro front
  rw [Text.before?_eq_some_iff]
  apply eq_comm

theorem perm_arrange (entries : List (Bytes × α)) : (options.arrange entries).Perm entries := by
  unfold arrange
  split
  next => apply List.mergeSort_perm
  next => rfl

theorem pairwise_arrange {entries : List (Bytes × α)} (hsorted : options.sorted = true)
    (hentries : (entries.map (·.1)).Nodup) :
    (options.arrange entries).Pairwise fun a b => a.1 < b.1 := by
  rw [arrange, if_pos hsorted]
  exact pairwise_mergeSort_of_nodup hentries

end ScanOptions

namespace Scan

variable {options : ScanOptions}

def eventsAt (options : ScanOptions) (p : Path) (e : Bytes × FileTree) : List Event :=
  match e.2 with
  | .file _ => if options.takes e.1 then [.found (p.child e.1)] else []
  | .link _ => []
  | .directory _ =>
    if options.leavesOut e.1 then [.skipped (p.child e.1)] else eventsIn options (p.child e.1) e.2

theorem eventsOf_eq_map (p : Path) (entries : List (Bytes × FileTree)) :
    eventsOf options p entries = entries.map fun e => (e.1, eventsAt options p e) := by
  induction entries with
  | nil => rw [eventsOf, List.map_nil]
  | cons e entries ih =>
    rw [List.map_cons, ← ih]
    rfl

def filesIn (options : ScanOptions) (p : Path) (t : FileTree) : List Path :=
  (eventsIn options p t).filterMap Event.found?

def filesAt (options : ScanOptions) (p : Path) (e : Bytes × FileTree) : List Path :=
  (eventsAt options p e).filterMap Event.found?

theorem filesIn_directory (p : Path) (entries : List (Bytes × FileTree)) :
    filesIn options p (.directory entries)
      = (options.arrange (entries.map fun e => (e.1, eventsAt options p e))).flatMap
        fun e => e.2.filterMap Event.found? := by
  rw [filesIn, eventsIn, eventsOf_eq_map, List.filterMap_flatMap]

theorem exists_of_mem_arrange {p : Path} {entries : List (Bytes × FileTree)}
    {e : Bytes × List Event}
    (he : e ∈ options.arrange (entries.map fun e => (e.1, eventsAt options p e))) :
    ∃ t, (e.1, t) ∈ entries ∧ e.2.filterMap Event.found? = filesAt options p (e.1, t) := by
  rw [(ScanOptions.perm_arrange _).mem_iff, List.mem_map] at he
  rcases he with ⟨⟨name, t⟩, he, rfl⟩
  exact ⟨t, he, rfl⟩

theorem mem_filesIn_directory {p q : Path} {entries : List (Bytes × FileTree)} :
    q ∈ filesIn options p (.directory entries) ↔ ∃ e ∈ entries, q ∈ filesAt options p e := by
  rw [filesIn_directory, List.mem_flatMap]
  simp only [(ScanOptions.perm_arrange _).mem_iff, List.mem_map, exists_exists_and_eq_and]
  rfl

@[simp] theorem filesIn_file (p : Path) (content : Bytes) :
    filesIn options p (.file content) = [] := by
  simp [filesIn, eventsIn]

@[simp] theorem filesIn_link (p target : Path) : filesIn options p (.link target) = [] := by
  simp [filesIn, eventsIn]

theorem mem_filesAt_iff {p q : Path} {name : Bytes} {t : FileTree} :
    q ∈ filesAt options p (name, t) ↔
      (∃ content, t = .file content ∧ options.takes name = true ∧ q = p.child name)
        ∨ options.leavesOut name = false ∧ q ∈ filesIn options (p.child name) t := by
  rw [filesAt, eventsAt]
  cases t with
  | file content =>
    dsimp only
    split
    next htakes => simp [htakes, Event.found?]
    next htakes => simp [htakes]
  | link target => simp
  | directory entries =>
    dsimp only
    split
    next hleft => simp [hleft, Event.found?]
    next hkept => simp [hkept, filesIn]

/-- The names lead from a directory down to a candidate in it. -/
inductive LeadsToCandidate (options : ScanOptions) : FileTree → List Bytes → Prop
  | here {entries : List (Bytes × FileTree)} {name content : Bytes}
    (hmem : (name, .file content) ∈ entries) (htakes : options.takes name = true) :
    LeadsToCandidate options (.directory entries) [name]
  | inside {entries : List (Bytes × FileTree)} {name : Bytes} {t : FileTree} {names : List Bytes}
    (hmem : (name, t) ∈ entries) (hkept : options.leavesOut name = false)
    (h : LeadsToCandidate options t names) :
    LeadsToCandidate options (.directory entries) (name :: names)

theorem mem_filesIn_iff {p q : Path} {t : FileTree} :
    q ∈ filesIn options p t ↔
      ∃ names, LeadsToCandidate options t names ∧ q = names.foldl Path.child p := by
  induction t generalizing p with
  | file content =>
    rw [filesIn_file]
    constructor
    · rintro ⟨⟩
    · rintro ⟨_, ⟨⟩, _⟩
  | link target =>
    rw [filesIn_link]
    constructor
    · rintro ⟨⟩
    · rintro ⟨_, ⟨⟩, _⟩
  | directory entries ih =>
    rw [mem_filesIn_directory]
    constructor
    · rintro ⟨⟨name, t⟩, hmem, hq⟩
      rw [mem_filesAt_iff, ih _ hmem] at hq
      rcases hq with ⟨content, rfl, htakes, hq⟩ | ⟨hkept, names, hnames, hq⟩
      · exact ⟨[name], .here hmem htakes, hq⟩
      · exact ⟨name :: names, .inside hmem hkept hnames, hq⟩
    · rintro ⟨_, hnames, rfl⟩
      cases hnames with
      | here hmem htakes =>
        refine ⟨_, hmem, ?_⟩
        rw [mem_filesAt_iff]
        exact .inl ⟨_, rfl, htakes, rfl⟩
      | inside hmem hkept h =>
        refine ⟨_, hmem, ?_⟩
        rw [mem_filesAt_iff, ih _ hmem]
        exact .inr ⟨hkept, _, h, rfl⟩

namespace LeadsToCandidate

variable {t : FileTree} {names : List Bytes}

theorem iff_at? (ht : t.WellNamed) :
    LeadsToCandidate options t names ↔
      ∃ above name content, names = above ++ [name] ∧ t.at? names = some (.file content)
        ∧ (∀ a ∈ above, options.leavesOut a = false) ∧ options.takes name = true := by
  constructor
  · intro h
    induction h with
    | @here entries name content hmem htakes =>
      refine ⟨[], name, content, rfl, ?_, by simp, htakes⟩
      rw [FileTree.at?, ht.child?_eq_some_iff.2 hmem]
      rfl
    | @inside entries name t names hmem hkept _ ih =>
      rcases ih (ht.of_mem hmem) with ⟨above, last, content, rfl, hat, habove, htakes⟩
      refine ⟨name :: above, last, content, rfl, ?_, ?_, htakes⟩
      · rw [FileTree.at?, ht.child?_eq_some_iff.2 hmem]
        exact hat
      · rw [List.forall_mem_cons]
        exact ⟨hkept, habove⟩
  · rintro ⟨above, name, content, rfl, hat, habove, htakes⟩
    induction above generalizing t with
    | nil =>
      rcases FileTree.exists_of_at?_cons hat with ⟨entries, _, rfl, hmem, hinner⟩
      cases hinner
      exact .here hmem htakes
    | cons a above ih =>
      rcases FileTree.exists_of_at?_cons hat with ⟨entries, _, rfl, hmem, hinner⟩
      rw [List.forall_mem_cons] at habove
      exact .inside hmem habove.1 (ih (ht.of_mem hmem) hinner habove.2)

theorem isName (ht : t.WellNamed) (h : LeadsToCandidate options t names) :
    ∀ name ∈ names, Path.IsName name := by
  induction h with
  | @here entries name content hmem _ =>
    rw [List.forall_mem_singleton]
    apply (ht [] entries rfl).2 name (List.mem_map_of_mem hmem)
  | @inside entries name t names hmem _ _ ih =>
    rw [List.forall_mem_cons]
    exact ⟨(ht [] entries rfl).2 name (List.mem_map_of_mem hmem), ih (ht.of_mem hmem)⟩

end LeadsToCandidate

section Order

variable {p : Path} {entries : List (Bytes × FileTree)}

theorem components_of_mem_filesAt {q : Path} (ht : (FileTree.directory entries).WellNamed)
    (hp : p.isAbsolute = true) {name : Bytes} {t : FileTree} (hmem : (name, t) ∈ entries)
    (hq : q ∈ filesAt options p (name, t)) :
    ∃ names : List Bytes,
      q.components = p.components ++ .name name :: names.map Path.Component.name := by
  have hfile : ∃ names, LeadsToCandidate options (.directory entries) (name :: names)
      ∧ q = (name :: names).foldl Path.child p := by
    rw [mem_filesAt_iff, mem_filesIn_iff] at hq
    rcases hq with ⟨content, rfl, htakes, hq⟩ | ⟨hkept, names, hnames, hq⟩
    · exact ⟨[], .here hmem htakes, hq⟩
    · exact ⟨names, .inside hmem hkept hnames, hq⟩
  rcases hfile with ⟨names, hnames, rfl⟩
  exact ⟨names, Path.components_children (hnames.isName ht) hp⟩

theorem lt_of_mem_filesAt {q q' : Path} (ht : (FileTree.directory entries).WellNamed)
    (hp : p.isAbsolute = true) {name name' : Bytes} {t t' : FileTree} (hlt : name < name')
    (hmem : (name, t) ∈ entries) (hmem' : (name', t') ∈ entries)
    (hq : q ∈ filesAt options p (name, t)) (hq' : q' ∈ filesAt options p (name', t')) : q < q' := by
  rcases components_of_mem_filesAt ht hp hmem hq with ⟨names, hcomponents⟩
  rcases components_of_mem_filesAt ht hp hmem' hq' with ⟨names', hcomponents'⟩
  -- The names of the entries decide, whatever follows them.
  rw [Path.lt_iff, hcomponents, hcomponents']
  apply List.append_left_lt
  rw [List.cons_lt_cons_iff, Path.Component.name_lt_name_iff]
  exact .inl hlt

theorem pairwise_filesAt {name : Bytes} {t : FileTree}
    (h : (filesIn options (p.child name) t).Pairwise (· < ·)) :
    (filesAt options p (name, t)).Pairwise (· < ·) := by
  rw [filesAt, eventsAt]
  cases t with
  | file _ =>
    dsimp only
    split <;> simp [Event.found?]
  | link _ => simp
  | directory _ =>
    dsimp only
    split
    next => exact List.Pairwise.nil
    next => exact h

end Order

theorem pairwise_filesIn (hsorted : options.sorted = true) {p : Path} {t : FileTree}
    (ht : t.WellNamed) (hp : p.isAbsolute = true) :
    (filesIn options p t).Pairwise (· < ·) := by
  induction t generalizing p with
  | file content =>
    rw [filesIn_file]
    apply List.Pairwise.nil
  | link target =>
    rw [filesIn_link]
    apply List.Pairwise.nil
  | directory entries ih =>
    have hnames := ht [] entries rfl
    have hnodup : ((entries.map fun e => (e.1, eventsAt options p e)).map (·.1)).Nodup := by
      rw [List.map_map]
      exact hnames.1
    rw [filesIn_directory, List.pairwise_flatMap]
    constructor
    · intro e he
      rcases exists_of_mem_arrange he with ⟨t, hmem, hfiles⟩
      rw [hfiles]
      apply pairwise_filesAt
      apply ih _ hmem (ht.of_mem hmem)
      apply Path.isAbsolute_child (hnames.2 _ (List.mem_map_of_mem hmem)) hp
    · apply (ScanOptions.pairwise_arrange hsorted hnodup).imp_of_mem
      intro e e' he he' hlt q hq q' hq'
      rcases exists_of_mem_arrange he with ⟨t, hmem, hfiles⟩
      rcases exists_of_mem_arrange he' with ⟨t', hmem', hfiles'⟩
      rw [hfiles] at hq
      rw [hfiles'] at hq'
      apply lt_of_mem_filesAt ht hp hlt hmem hmem' hq hq'

theorem nodup_components_filesIn (hsorted : options.sorted = true) {p : Path} {t : FileTree}
    (ht : t.WellNamed) (hp : p.isAbsolute = true) :
    ((filesIn options p t).map Path.components).Nodup := by
  rw [List.Nodup, List.pairwise_map]
  apply (pairwise_filesIn hsorted ht hp).imp
  apply Path.components_ne_of_lt

theorem LeadsToCandidate.of_reordered {t t' : FileTree} (ht : t.WellNamed) (ht' : t'.WellNamed)
    (h : t.Reordered t') {names : List Bytes} (hnames : LeadsToCandidate options t names) :
    LeadsToCandidate options t' names := by
  rw [iff_at? ht] at hnames
  rw [iff_at? ht']
  rcases hnames with ⟨above, name, content, hsplit, hat, hkept⟩
  exact ⟨above, name, content, hsplit,
    FileTree.Reordered.rel_of_not_isDirectory (h.everywhere ht names) hat rfl, hkept⟩

theorem filesIn_eq_of_reordered (hsorted : options.sorted = true) {p : Path} {t t' : FileTree}
    (ht : t.WellNamed) (hp : p.isAbsolute = true) (h : t.Reordered t') :
    filesIn options p t' = filesIn options p t := by
  have ht' := (h.everywhere ht).wellNamed ht
  have hordered := pairwise_filesIn hsorted ht hp
  have hordered' := pairwise_filesIn hsorted ht' hp
  have hmem : ∀ q, q ∈ filesIn options p t' ↔ q ∈ filesIn options p t := by
    intro q
    rw [mem_filesIn_iff, mem_filesIn_iff]
    apply exists_congr
    intro names
    apply and_congr_left
    intro _
    exact ⟨.of_reordered ht' ht h.symm, .of_reordered ht ht' h⟩
  have hnodup := (nodup_components_filesIn hsorted ht hp).of_map
  have hnodup' := (nodup_components_filesIn hsorted ht' hp).of_map
  -- A list in strict order is given by its members.
  apply List.Perm.eq_of_pairwise _ hordered' hordered
  · exact (List.perm_ext_iff_of_nodup hnodup' hnodup).2 hmem
  · intro q q' _ _ hlt hlt'
    exact absurd hlt' (Path.lt_asymm hlt)

end Scan

namespace FileSystem

theorem scan_eq {fs : FileSystem} {root r : Path} {t : FileTree} (options : ScanOptions)
    (hroot : fs.canonical root = .ok r) (ht : fs.directory? r = some t) :
    fs.disk.scan root options = .ok ⟨r, options, Scan.eventsIn options r t⟩ := by
  rw [Disk.scan, disk]
  simp only [hroot, ht]

theorem isAbsolute_of_canonical {fs : FileSystem} {root r : Path}
    (h : fs.canonical root = .ok r) : r.isAbsolute = true := by
  rw [canonical] at h
  cases hlocate : fs.locate root with
  | error fault =>
    rw [hlocate] at h
    cases h
  | ok location =>
    rw [hlocate] at h
    cases h
    apply Path.isAbsolute_ofNames

theorem scan_of_sorted {fs : FileSystem} {root r : Path} {t : FileTree} {options : ScanOptions}
    (hnamed : fs.top.WellNamed) (hroot : fs.canonical root = .ok r)
    (ht : fs.directory? r = some t) (hsorted : options.sorted = true) :
    ∃ scan, fs.disk.scan root options = .ok scan
      ∧ (∀ file, file ∈ scan.candidates.files ↔
        ∃ above name content, t.at? (above ++ [name]) = some (.file content)
          ∧ (∀ a ∈ above, Text.Utf8.decodeLossy a ∉ options.excluded)
          ∧ '.' :: options.extension <:+ Text.Utf8.decodeLossy name
          ∧ file = (above ++ [name]).foldl Path.child r)
      ∧ (scan.candidates.files.map Path.components).Nodup
      ∧ scan.candidates.files.Pairwise (· < ·)
      ∧ ∀ top, fs.top.Reordered top →
        ∃ scan', ({ fs with top } : FileSystem).disk.scan root options = .ok scan'
          ∧ scan'.candidates = scan.candidates
          ∧ ∀ name, scan'.candidates.resolve? name = scan.candidates.resolve? name := by
  have hp := isAbsolute_of_canonical hroot
  have htnamed := wellNamed_of_directory? hnamed ht
  have hnodup := Scan.nodup_components_filesIn hsorted htnamed hp
  have hfiles : (Scan.candidates ⟨r, options, Scan.eventsIn options r t⟩).files
      = Scan.filesIn options r t := CandidateSet.files_ofList _ hnodup
  refine ⟨_, scan_eq options hroot ht, ?_, ?_, ?_, ?_⟩
  · intro file
    rw [hfiles, Scan.mem_filesIn_iff]
    simp only [Scan.LeadsToCandidate.iff_at? htnamed, ScanOptions.takes_iff,
      ← ScanOptions.leavesOut_iff, Bool.not_eq_true]
    constructor
    · rintro ⟨_, ⟨above, name, content, rfl, hat, habove, htakes⟩, hfile⟩
      exact ⟨above, name, content, hat, habove, htakes, hfile⟩
    · rintro ⟨above, name, content, hat, habove, htakes, hfile⟩
      exact ⟨_, ⟨above, name, content, rfl, hat, habove, htakes⟩, hfile⟩
  · rw [hfiles]
    exact hnodup
  · rw [hfiles]
    exact Scan.pairwise_filesIn hsorted htnamed hp
  · intro top htop
    rw [← canonical_eq_of_reordered hnamed htop] at hroot
    rcases directory?_of_reordered hnamed htop ht with ⟨t', ht', hreordered⟩
    have hcandidates : Scan.candidates ⟨r, options, Scan.eventsIn options r t'⟩
        = Scan.candidates ⟨r, options, Scan.eventsIn options r t⟩ :=
      congrArg (CandidateSet.ofList options.extension)
        (Scan.filesIn_eq_of_reordered hsorted htnamed hp hreordered)
    refine ⟨_, scan_eq options hroot ht', hcandidates, ?_⟩
    intro name
    rw [hcandidates]

def unorderedEntries : List (Bytes × FileTree) :=
  [([0x6E, 0x6F, 0x64, 0x65, 0x5F, 0x6D, 0x6F, 0x64, 0x75, 0x6C, 0x65, 0x73],
      .directory [([0x43, 0x2E, 0x76, 0x75, 0x65], .file [])]),
    ([0x61, 0x2D, 0x62, 0x2E, 0x76, 0x75, 0x65], .file []),
    ([0x61],
      .directory [([0x6C, 0x2E, 0x76, 0x75, 0x65], .link ⟨[0x2F]⟩),
        ([0x41, 0x2E, 0x76, 0x75, 0x65], .file [])])]

def unorderedFiles (entries : List (Bytes × FileTree)) : FileSystem where
  top := .directory [([0x70], .directory entries)]
  workingDirectory := []

theorem wellNamed_unorderedFiles : (unorderedFiles unorderedEntries).top.WellNamed := by
  have hinner : ∀ e ∈ unorderedEntries, e.2.WellNamed := by
    simp only [unorderedEntries, List.forall_mem_cons]
    refine ⟨?_, FileTree.wellNamed_of_not_isDirectory rfl, ?_, by simp⟩
    · apply FileTree.wellNamed_directory (by decide) (by decide)
      rw [List.forall_mem_singleton]
      exact FileTree.wellNamed_of_not_isDirectory rfl
    · apply FileTree.wellNamed_directory (by decide) (by decide)
      rw [List.forall_mem_cons, List.forall_mem_singleton]
      exact ⟨FileTree.wellNamed_of_not_isDirectory rfl, FileTree.wellNamed_of_not_isDirectory rfl⟩
  apply FileTree.wellNamed_directory (by decide) (by decide)
  rw [List.forall_mem_singleton]
  apply FileTree.wellNamed_directory (by decide) (by decide) hinner

theorem scan_of_sorted_unorderedFiles :
    let files := unorderedFiles unorderedEntries
    let root := Path.mk [0x70, 0x2F, 0x61, 0x2F, 0x2E, 0x2E]
    let options : ScanOptions := { sorted := true }
    files.top.WellNamed
      ∧ files.canonical root = .ok ⟨[0x2F, 0x70]⟩
      ∧ files.directory? ⟨[0x2F, 0x70]⟩ = some (.directory unorderedEntries)
      ∧ ∃ scan scan', files.disk.scan root options = .ok scan
        ∧ (unorderedFiles unorderedEntries.reverse).disk.scan root options = .ok scan'
        ∧ scan'.candidates = scan.candidates
        ∧ Path.mk [0x2F, 0x70, 0x2F, 0x61, 0x2F, 0x41, 0x2E, 0x76, 0x75, 0x65]
          ∈ scan.candidates.files := by
  intro files root options
  have hroot : files.canonical root = .ok ⟨[0x2F, 0x70]⟩ := by
    cbv
  have hlocation : files.locate ⟨[0x2F, 0x70]⟩ = .ok [[0x70]] := by
    cbv
  have hdirectory : files.directory? ⟨[0x2F, 0x70]⟩ = some (.directory unorderedEntries) := by
    rw [directory?, hlocation]
    rfl
  have hreversed : files.top.Reordered (unorderedFiles unorderedEntries.reverse).top :=
    .entry [] [] (.entries (List.reverse_perm unorderedEntries).symm)
  refine ⟨wellNamed_unorderedFiles, hroot, hdirectory, ?_⟩
  have hsorted : options.sorted = true := rfl
  rcases scan_of_sorted wellNamed_unorderedFiles hroot hdirectory hsorted with
    ⟨scan, hscan, hfiles, _, _, hreordered⟩
  rcases hreordered _ hreversed with ⟨scan', hscan', hcandidates, _⟩
  refine ⟨scan, scan', hscan, hscan', hcandidates, ?_⟩
  rw [hfiles]
  refine ⟨[[0x61]], [0x41, 0x2E, 0x76, 0x75, 0x65], [], rfl, ?_, ?_, rfl⟩
  · decide +kernel
  · decide +kernel

end FileSystem

end ComponentTree
