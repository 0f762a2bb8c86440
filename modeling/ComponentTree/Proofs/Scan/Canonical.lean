import ComponentTree.Proofs.Build.Linked
import ComponentTree.Proofs.FileTree.Canonical
import ComponentTree.Proofs.Scan.Sorted

/-!
This module contains under which paths candidates are known: each is found under its canonical path,
which is the one that the graph knows its source by.
-/

namespace ComponentTree

namespace Path

theorem children_ofNames {location names : List Bytes} (hlocation : ∀ name ∈ location, IsName name)
    (hnames : ∀ name ∈ names, IsName name) :
    names.foldl child (ofNames location) = ofNames (location ++ names) := by
  induction names generalizing location with
  | nil => rw [List.foldl_nil, List.append_nil]
  | cons name names ih =>
    rw [List.forall_mem_cons] at hnames
    have hextended : ∀ n ∈ location ++ [name], IsName n := by
      rw [List.forall_mem_append, List.forall_mem_singleton]
      exact ⟨hlocation, hnames.1⟩
    rw [List.foldl_cons, child_ofNames hlocation hnames.1, ih hextended hnames.2,
      ← List.append_cons]

end Path

namespace FileSystem

variable {fs : FileSystem} {root : Path} {options : ScanOptions} {scan : Scan}

theorem exists_of_scan (h : fs.disk.scan root options = .ok scan) :
    ∃ r t, fs.canonical root = .ok r ∧ fs.directory? r = some t
      ∧ scan = ⟨r, options, Scan.eventsIn options r t⟩ := by
  simp only [Disk.scan, disk] at h
  cases hroot : fs.canonical root with
  | error fault =>
    rw [hroot] at h
    cases h
  | ok r =>
    simp only [hroot] at h
    cases ht : fs.directory? r with
    | none =>
      rw [ht] at h
      cases h
    | some t =>
      rw [ht] at h
      cases h
      exact ⟨r, t, rfl, ht, rfl⟩

theorem exists_of_mem_candidates (hsound : fs.top.Sound)
    (h : fs.disk.scan root options = .ok scan) {file : Path}
    (hfile : file ∈ scan.candidates.files) :
    ∃ location names, fs.canonical root = .ok (.ofNames location) ∧ names ≠ []
      ∧ fs.top.Holds (location ++ names) ∧ file = .ofNames (location ++ names) := by
  rcases exists_of_scan h with ⟨r, t, hroot, ht, rfl⟩
  have htnamed := wellNamed_of_directory? hsound.wellNamed ht
  rcases exists_of_canonical hroot with ⟨location, _, rfl, hlocation, hdirectory⟩
  have hmem : file ∈ Scan.filesIn options (.ofNames location) t :=
    CandidateSet.mem_of_mem_ofList hfile
  rcases Scan.mem_filesIn_iff.1 hmem with ⟨names, hnames, rfl⟩
  have hisName := hnames.isName htnamed
  rcases (Scan.LeadsToCandidate.iff_at? htnamed).1 hnames with ⟨above, name, content, rfl, hat, _⟩
  have hat' : fs.top.at? location = some t := by
    rw [directory?, locate_ofNames hsound hdirectory hlocation] at ht
    exact (Option.filter_eq_some_iff.1 ht).1
  -- The names from the root of the search go on from those of the root itself.
  refine ⟨location, above ++ [name], hroot, by simp, ⟨.file content, ?_, by simp⟩, ?_⟩
  · rw [FileTree.at?_append, hat', Option.bind_some, hat]
  · exact Path.children_ofNames (fun n hn => (hsound.isName hlocation n hn).1) hisName

theorem canonical_of_mem_candidates (hsound : fs.top.Sound)
    (h : fs.disk.scan root options = .ok scan) {file : Path}
    (hfile : file ∈ scan.candidates.files) :
    fs.canonical file = .ok file := by
  rcases exists_of_mem_candidates hsound h hfile with ⟨location, names, hroot, _, hholds, rfl⟩
  rcases exists_of_canonical hroot with ⟨_, _, _, _, hdirectory⟩
  rw [canonical, locate_ofNames hsound hdirectory hholds]
  rfl

theorem pairwise_canonical_candidates (hsound : fs.top.Sound)
    (h : fs.disk.scan root options = .ok scan) :
    scan.candidates.files.Pairwise fun file file' => fs.canonical file ≠ fs.canonical file' := by
  have hnodup := scan.candidates.nodup
  rw [List.Nodup, List.pairwise_map] at hnodup
  apply hnodup.imp_of_mem
  intro file file' hfile hfile' hne heq
  rw [canonical_of_mem_candidates hsound h hfile,
    canonical_of_mem_candidates hsound h hfile'] at heq
  cases heq
  exact hne rfl

theorem mem_paths_of_mem_dependencies (hsound : fs.top.Sound)
    (h : fs.disk.scan root options = .ok scan) {graph : Graph}
    (hlinked : Build.Linked scan.candidates fs.disk.loader graph) {source target : Path}
    {text : Text} (htarget : target ∈ graph.dependencies source)
    (htext : fs.disk.text target = .ok text) : target ∈ graph.paths := by
  rcases hlinked.target source target htarget with ⟨hmem, hsettled⟩
  have hcanonical := canonical_of_mem_candidates hsound h hmem
  have hmarked := hsettled target text hcanonical htext
  rcases Graph.exists_mem_paths_of_contains hmarked with ⟨node, hnode, hsame⟩
  rcases hlinked.canonical node hnode with ⟨q, hq⟩
  rw [← eq_of_canonical_of_same hsound hq hcanonical hsame]
  exact hnode

theorem candidates_canonical (hsound : fs.top.Sound) (h : fs.disk.scan root options = .ok scan) :
    ∃ r, fs.canonical root = .ok r
      ∧ (∀ file ∈ scan.candidates.files, file.isAbsolute = true
        ∧ (∃ names ≠ [], file.components = r.components ++ names.map .name)
        ∧ fs.canonical file = .ok file)
      ∧ scan.candidates.files.Pairwise (fun file file' => fs.canonical file ≠ fs.canonical file')
      ∧ ∀ entries source target text,
        let graph := (Build.addEntries scan.candidates fs.disk.loader .start entries).2.graph
        target ∈ graph.dependencies source → fs.disk.text target = .ok text →
          target ∈ graph.paths := by
  rcases exists_of_scan h with ⟨r, _, hroot, _⟩
  refine ⟨r, hroot, ?_, pairwise_canonical_candidates hsound h, ?_⟩
  · intro file hfile
    have hcanonical := canonical_of_mem_candidates hsound h hfile
    rcases exists_of_mem_candidates hsound h hfile with ⟨location, names, hroot', hne, hholds, rfl⟩
    rw [hroot] at hroot'
    cases hroot'
    refine ⟨Path.isAbsolute_ofNames _, ⟨names, hne, ?_⟩, hcanonical⟩
    have hnames := fun n hn => (hsound.isName hholds n hn).1
    rw [Path.components_ofNames hnames,
      Path.components_ofNames fun n hn => hnames n (List.mem_append_left _ hn)]
    simp
  · intro entries source target text graph htarget htext
    have hlinked : Build.Linked scan.candidates fs.disk.loader graph := .addEntries entries
    exact mem_paths_of_mem_dependencies hsound h hlinked htarget htext

def linkedFiles : FileSystem where
  top := .directory
    [([0x70], .directory
        [([0x41, 0x2E, 0x76, 0x75, 0x65], .file [0x3C, 0x42, 0x2F, 0x3E]),
          ([0x42, 0x2E, 0x76, 0x75, 0x65], .file []),
          ([0x6C, 0x2E, 0x76, 0x75, 0x65],
            .link ⟨[0x2F, 0x71, 0x2F, 0x41, 0x2E, 0x76, 0x75, 0x65]⟩)]),
      ([0x71], .link ⟨[0x70]⟩)]
  workingDirectory := []

theorem sound_linkedFiles : linkedFiles.top.Sound := by
  apply FileTree.Sound.directory (by decide) (by decide)
  rw [List.forall_mem_cons, List.forall_mem_singleton]
  refine ⟨?_, .of_not_isDirectory rfl⟩
  apply FileTree.Sound.directory (by decide) (by decide)
  rw [List.forall_mem_cons, List.forall_mem_cons, List.forall_mem_singleton]
  exact ⟨.of_not_isDirectory rfl, .of_not_isDirectory rfl, .of_not_isDirectory rfl⟩

theorem scan_linkedFiles :
    linkedFiles.disk.scan ⟨[0x71, 0x2F, 0x2E, 0x2E, 0x2F, 0x71, 0x2F, 0x2E]⟩ {}
      = .ok ⟨⟨[0x2F, 0x70]⟩, {}, [.found ⟨[0x2F, 0x70, 0x2F, 0x41, 0x2E, 0x76, 0x75, 0x65]⟩,
          .found ⟨[0x2F, 0x70, 0x2F, 0x42, 0x2E, 0x76, 0x75, 0x65]⟩]⟩ := by
  have hroot : linkedFiles.canonical ⟨[0x71, 0x2F, 0x2E, 0x2E, 0x2F, 0x71, 0x2F, 0x2E]⟩
      = .ok ⟨[0x2F, 0x70]⟩ := by
    cbv
  have hlocation : linkedFiles.locate ⟨[0x2F, 0x70]⟩ = .ok [[0x70]] := by
    cbv
  have hdirectory : ∃ t, linkedFiles.directory? ⟨[0x2F, 0x70]⟩ = some t
      ∧ Scan.eventsIn {} ⟨[0x2F, 0x70]⟩ t
        = [.found ⟨[0x2F, 0x70, 0x2F, 0x41, 0x2E, 0x76, 0x75, 0x65]⟩,
          .found ⟨[0x2F, 0x70, 0x2F, 0x42, 0x2E, 0x76, 0x75, 0x65]⟩] := by
    rw [directory?, hlocation]
    exact ⟨_, rfl, by decide +kernel⟩
  rcases hdirectory with ⟨t, ht, hevents⟩
  rw [scan_eq {} hroot ht, hevents]

theorem candidates_canonical_linkedFiles :
    let root := Path.mk [0x71, 0x2F, 0x2E, 0x2E, 0x2F, 0x71, 0x2F, 0x2E]
    let pathOfA := Path.mk [0x2F, 0x70, 0x2F, 0x41, 0x2E, 0x76, 0x75, 0x65]
    let pathOfB := Path.mk [0x2F, 0x70, 0x2F, 0x42, 0x2E, 0x76, 0x75, 0x65]
    linkedFiles.top.Sound
      ∧ ∃ scan, linkedFiles.disk.scan root {} = .ok scan
        ∧ scan.candidates.files = [pathOfA, pathOfB]
        ∧ linkedFiles.canonical pathOfA = .ok pathOfA
        ∧ let graph :=
            (Build.addEntries scan.candidates linkedFiles.disk.loader .start [pathOfA]).2.graph
          pathOfB ∈ graph.dependencies pathOfA ∧ pathOfB ∈ graph.paths := by
  intro root pathOfA pathOfB
  have hscan : linkedFiles.disk.scan root {}
      = .ok ⟨⟨[0x2F, 0x70]⟩, {}, [.found pathOfA, .found pathOfB]⟩ := scan_linkedFiles
  have hfiles : (Scan.candidates ⟨⟨[0x2F, 0x70]⟩, {}, [.found pathOfA, .found pathOfB]⟩).files
      = [pathOfA, pathOfB] := by decide
  have hname : (Scan.candidates ⟨⟨[0x2F, 0x70]⟩, {}, [.found pathOfA, .found pathOfB]⟩).resolve?
      ['B'] = some pathOfB := by decide +kernel
  generalize Scan.mk ⟨[0x2F, 0x70]⟩ {} [.found pathOfA, .found pathOfB] = scan
    at hscan hfiles hname
  rcases candidates_canonical sound_linkedFiles hscan with ⟨_, _, hcanonical, _, hedges⟩
  have hA : linkedFiles.disk.loader.canonical pathOfA = .ok pathOfA :=
    (hcanonical pathOfA (by simp [hfiles])).2.2
  have hB : linkedFiles.disk.loader.canonical pathOfB = .ok pathOfB :=
    (hcanonical pathOfB (by simp [hfiles])).2.2
  have hcontentA : linkedFiles.content pathOfA = .ok [0x3C, 0x42, 0x2F, 0x3E] := by
    cbv
  have hcontentB : linkedFiles.content pathOfB = .ok [] := by
    cbv
  have htextA : linkedFiles.disk.loader.text pathOfA = .ok "<B/>".toList :=
    text_disk hcontentA (by decide +kernel)
  have htextB : linkedFiles.disk.loader.text pathOfB = .ok [] :=
    text_disk hcontentB (by decide +kernel)
  refine ⟨sound_linkedFiles, scan, hscan, hfiles, hA, ?_⟩
  intro graph
  have hedge : pathOfB ∈ graph.dependencies pathOfA := by
    have hnamesA : (References.ofSource "<B/>".toList).names = [['B']] := by decide +kernel
    have hnamesB : (References.ofSource []).names = [] := by decide +kernel
    have hfreshA : Graph.empty.contains pathOfA = false := by decide
    have hfreshB : ((Graph.empty.mark pathOfA).link pathOfA pathOfB).contains pathOfB = false := by
      decide
    simp only [graph, Build.addEntries, Build.addEntry, Build.visit, Build.openSource,
      Build.Progress.start, hA, htextA, hnamesA, hfreshA, List.map_cons, List.map_nil,
      Bool.false_eq_true, ↓reduceIte, Build.follow_cons, Build.followOne, hname, hB,
      Build.Progress.graph_link, hfreshB, htextB, hnamesB, List.append_nil, Build.follow]
    decide
  exact ⟨hedge, hedges [pathOfA] pathOfA pathOfB [] hedge htextB⟩

end FileSystem

end ComponentTree
