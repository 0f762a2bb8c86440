import Mathlib.Data.List.Permutation
import ComponentTree.FileTree.Disk
import ComponentTree.Proofs.Build.Attempts
import ComponentTree.Proofs.FileTree.Canonical
import ComponentTree.Proofs.Tree.Unfolds

/-!
This module contains what becomes of an entry that has no canonical path. The path under which it is
shown, its absolute one, is visited all the same, so that it leaves nothing behind just if that path
leads to no source that is new.
-/

namespace ComponentTree

theorem Loader.leadsTo_iff {loader : Loader} {p q : Path} :
    loader.leadsTo p q ↔ ∃ node, loader.canonical q = .ok node ∧ node.Same p := by
  unfold leadsTo
  cases loader.canonical q with
  | ok node => simp
  | error fault => simp

theorem Graph.tree_eq_of_not_contains {g : Graph} {p : Path} (h : ¬ g.contains p)
    (limit : DepthLimit) : g.tree limit p = .node p [] := by
  unfold tree treeBelow
  split
  next => rfl
  next => simp [g.dependencies_eq_nil h]

namespace Build

variable {candidates : CandidateSet} {loader : Loader} {roots : List Path} {g : Graph}

theorem addEntry_of_error {entry : Path} {fault : Fault} (h : loader.canonical entry = .error fault)
    (s : Progress) : addEntry candidates loader s entry
      = (shownAs loader entry,
        visit candidates loader (s.log (.entryMissed entry fault)) (shownAs loader entry)) := by
  unfold addEntry shownAs
  rw [h]

theorem settled_addEntry_of_error {entry : Path} {fault : Fault}
    (h : loader.canonical entry = .error fault) (s : Progress) :
    Settled loader (addEntry candidates loader s entry).2.graph (shownAs loader entry) := by
  rw [addEntry_of_error h]
  exact settled_visit _ _

namespace Complete

variable (h : Complete candidates loader roots g) (hloader : loader.Congruent)

include h hloader

theorem contains_of_leadsTo {p q : Path} {source : Text}
    (hq : Visits candidates loader roots g q) (hleads : loader.leadsTo p q)
    (htext : loader.text p = .ok source) : g.contains p := by
  rcases Loader.leadsTo_iff.1 hleads with ⟨node, hcanonical, hsame⟩
  rw [← Graph.contains_congr g hsame]
  exact h.settled_of_visits hq node source hcanonical (hloader.text hsame.symm htext)

theorem exists_leadsTo {p : Path} (hp : g.contains p) :
    ∃ q, Visits candidates loader roots g q ∧ loader.leadsTo p q := by
  -- The paths that something visited leads to form a closed set, so all nodes are among them.
  have hclosed : Closed candidates loader roots
      {k | ∃ q, Visits candidates loader roots g q ∧ loader.leadsTo k q} := by
    constructor
    · rintro p p' hsame ⟨q, hq, hleads⟩
      rcases Loader.leadsTo_iff.1 hleads with ⟨node, hcanonical, hnode⟩
      exact ⟨q, hq, Loader.leadsTo_iff.2 ⟨node, hcanonical, hnode.trans hsame⟩⟩
    · intro r node source hr hcanonical _
      exact ⟨r, .root hr, Loader.leadsTo_iff.2 ⟨node, hcanonical, Path.Same.refl node⟩⟩
    · rintro k target node name source source' ⟨q, hq, hleads⟩ htext hname htarget hcanonical _
      have hk := h.contains_of_leadsTo hloader hq hleads htext
      exact ⟨target, .target hk htext hname htarget,
        Loader.leadsTo_iff.2 ⟨node, hcanonical, Path.Same.refl node⟩⟩
  exact h.least _ hclosed p hp

theorem not_contains_iff_leadsTo {p : Path} : ¬ g.contains p
    ↔ ∀ q, Visits candidates loader roots g q → loader.leadsTo p q →
      ∀ source, loader.text p ≠ .ok source := by
  constructor
  · intro hp q hq hleads source htext
    exact hp (h.contains_of_leadsTo hloader hq hleads htext)
  · intro hall hp
    rcases h.exists_leadsTo hloader hp with ⟨q, hq, hleads⟩
    rcases h.exists_text hp with ⟨source, htext, _⟩
    exact hall q hq hleads source htext

theorem not_contains_iff_canonical (hidempotent : loader.Idempotent) {r : Path} (hr : r ∈ roots) :
    ¬ g.contains r ↔ ∀ node source, loader.canonical r = .ok node →
      loader.text node = .ok source → ¬ node.Same r := by
  constructor
  · intro hfresh node source hcanonical htext hsame
    apply hfresh
    rw [← Graph.contains_congr g hsame]
    exact h.settled r hr node source hcanonical htext
  · intro hall hmarked
    rcases h.exists_text hmarked with ⟨source, htext, _⟩
    rcases h.exists_canonical hloader hidempotent hmarked with ⟨node, hcanonical, hsame⟩
    exact hall node source hcanonical (hloader.text hsame.symm htext) hsame

end Complete

/--
An entry that is visited after `earlier` and before `later` leaves nothing behind: it changes no
graph, and in the end the path under which it is shown, its absolute one, is no node, so that it is
printed alone.
-/
structure LeavesNothing (candidates : CandidateSet) (loader : Loader) (earlier : List Path)
    (entry : Path) (later : List Path) : Prop where
  shown : (addEntry candidates loader (addEntries candidates loader .start earlier).2 entry).1
    = (entry.absolute? loader.workingDirectory).getD entry
  unchanged :
    (addEntry candidates loader (addEntries candidates loader .start earlier).2 entry).2.graph
      = (addEntries candidates loader .start earlier).2.graph
  unmarked : ¬ (addEntries candidates loader .start (earlier ++ entry :: later)).2.graph.contains
    (shownAs loader entry)
  alone (limit : DepthLimit) :
    (addEntries candidates loader .start (earlier ++ entry :: later)).2.graph.tree limit
      (shownAs loader entry) = .node (shownAs loader entry) []

theorem leavesNothing_iff_of_error {earlier later : List Path} {entry : Path} {fault : Fault}
    (hentry : loader.canonical entry = .error fault) :
    LeavesNothing candidates loader earlier entry later
      ↔ (∀ node source, loader.canonical (shownAs loader entry) = .ok node →
          loader.text node = .ok source →
          (addEntries candidates loader .start earlier).2.graph.contains node)
        ∧ ¬ (addEntries candidates loader .start (earlier ++ entry :: later)).2.graph.contains
          (shownAs loader entry) := by
  have hunchanged :
      (addEntry candidates loader (addEntries candidates loader .start earlier).2 entry).2.graph
          = (addEntries candidates loader .start earlier).2.graph
        ↔ ∀ node source, loader.canonical (shownAs loader entry) = .ok node →
          loader.text node = .ok source →
          (addEntries candidates loader .start earlier).2.graph.contains node := by
    rw [addEntry_of_error hentry]
    exact graph_visit_eq_iff _ _
  constructor
  · intro h
    exact ⟨hunchanged.1 h.unchanged, h.unmarked⟩
  · rintro ⟨hknown, hunmarked⟩
    constructor
    case shown =>
      rw [addEntry_of_error hentry]
      unfold shownAs
      rw [hentry]
    case unchanged => exact hunchanged.2 hknown
    case unmarked => exact hunmarked
    case alone =>
      intro limit
      exact Graph.tree_eq_of_not_contains hunmarked limit

theorem leavesNothing_iff (candidates : CandidateSet) (loader : Loader)
    (hloader : loader.Congruent) (earlier : List Path) (entry : Path) (later : List Path)
    (fault : Fault) (hentry : loader.canonical entry = .error fault) :
    let before := (addEntries candidates loader .start earlier).2.graph
    let root := shownAs loader entry
    let built := addEntries candidates loader .start (earlier ++ entry :: later)
    (LeavesNothing candidates loader earlier entry later
        ↔ (∀ node source, loader.canonical root = .ok node → loader.text node = .ok source →
            before.contains node)
          ∧ ∀ q, Visits candidates loader built.1 built.2.graph q → loader.leadsTo root q →
            ∀ source, loader.text root ≠ .ok source)
      ∧ (loader.Idempotent → (LeavesNothing candidates loader earlier entry later
        ↔ ∀ node source, loader.canonical root = .ok node → loader.text node = .ok source →
          before.contains node ∧ ¬ node.Same root)) := by
  intro before root built
  have h : Complete candidates loader built.1 built.2.graph := .addEntries hloader _
  have hroot : root ∈ built.1 := by
    simp only [built, root, addEntries_fst, List.map_append, List.map_cons, List.mem_append,
      List.mem_cons, true_or, or_true]
  rw [leavesNothing_iff_of_error hentry]
  constructor
  · exact and_congr_right fun _ => h.not_contains_iff_leadsTo hloader
  · intro hidempotent
    have hunmarked := h.not_contains_iff_canonical hloader hidempotent hroot
    constructor
    · rintro ⟨hknown, hfresh⟩ node source hcanonical htext
      exact ⟨hknown node source hcanonical htext, hunmarked.1 hfresh node source hcanonical htext⟩
    · intro hall
      constructor
      · intro node source hcanonical htext
        exact (hall node source hcanonical htext).1
      · apply hunmarked.2
        intro node source hcanonical htext
        exact (hall node source hcanonical htext).2

theorem leavesNothing_mutualFiles :
    let candidates := CandidateSet.ofList "vue".toList (mutualFiles.map (·.path))
    let loader := MemoryFile.loader mutualFiles []
    let entry := Path.ofText "/p/Nope.vue".toList
    loader.Congruent ∧ loader.Idempotent ∧ loader.canonical entry = .error .notFound
      ∧ LeavesNothing candidates loader [.ofText "/p/A.vue".toList] entry
        [.ofText "/p/B.vue".toList] := by
  intro candidates loader entry
  have hloader : loader.Congruent := MemoryFile.congruent_loader mutualFiles []
  have hidempotent : loader.Idempotent :=
    MemoryFile.idempotent_loader mutualFiles fun _ h => by cases h
  have hentry : loader.canonical entry = .error .notFound := by decide +kernel
  have hmissing : loader.canonical (shownAs loader entry) = .error .notFound := by decide +kernel
  refine ⟨hloader, hidempotent, hentry, ?_⟩
  have hiff := leavesNothing_iff candidates loader hloader [.ofText "/p/A.vue".toList] entry
    [.ofText "/p/B.vue".toList] .notFound hentry
  apply (hiff.2 hidempotent).2
  intro node source hcanonical
  rw [hmissing] at hcanonical
  cases hcanonical

def appFiles : FileSystem where
  top := .directory [(Text.Utf8.encode "p".toList, .directory
    [(Text.Utf8.encode "App.vue".toList, .file (Text.Utf8.encode "<Nav />".toList)),
      (Text.Utf8.encode "Nav.vue".toList, .file [])])]
  workingDirectory := [Text.Utf8.encode "p".toList]

def appEntry : Path := .ofText "App.vue/.".toList

theorem canonical_appEntry : appFiles.disk.loader.canonical appEntry = .error .notDirectory := by
  cbv

theorem shownAs_appEntry :
    shownAs appFiles.disk.loader appEntry = .ofText "/p/App.vue".toList := by
  unfold shownAs
  rw [canonical_appEntry]
  cbv

theorem locate_appFiles : appFiles.locate (.ofText "/p/App.vue".toList)
    = .ok [Text.Utf8.encode "p".toList, Text.Utf8.encode "App.vue".toList] := by
  cbv

theorem canonical_shownAs_appEntry :
    appFiles.disk.loader.canonical (shownAs appFiles.disk.loader appEntry)
      = .ok (.ofText "/p/App.vue".toList) := by
  have hcanonical : appFiles.canonical (.ofText "/p/App.vue".toList)
      = .ok (.ofText "/p/App.vue".toList) := by
    rw [FileSystem.canonical, locate_appFiles]
    rfl
  rw [shownAs_appEntry]
  exact hcanonical

theorem text_appFiles :
    appFiles.disk.loader.text (.ofText "/p/App.vue".toList) = .ok "<Nav />".toList := by
  have hcontent : appFiles.content (.ofText "/p/App.vue".toList)
      = .ok (Text.Utf8.encode "<Nav />".toList) := by
    rw [FileSystem.content, locate_appFiles]
    rfl
  exact FileSystem.text_disk hcontent (by decide +kernel)

theorem not_leavesNothing_appFiles :
    let candidates := CandidateSet.ofList "vue".toList
      [.ofText "/p/App.vue".toList, .ofText "/p/Nav.vue".toList]
    let loader := appFiles.disk.loader
    let built := addEntries candidates loader .start [appEntry]
    loader.canonical appEntry = .error .notDirectory
      ∧ built.2.graph ≠ Progress.start.graph
      ∧ built.2.graph.contains (shownAs loader appEntry)
      ∧ ¬ LeavesNothing candidates loader [] appEntry [] := by
  intro candidates loader built
  have hsettled : Settled loader built.2.graph (shownAs loader appEntry) :=
    settled_addEntry_of_error canonical_appEntry .start
  have hmarked : built.2.graph.contains (shownAs loader appEntry) := by
    have := hsettled _ _ canonical_shownAs_appEntry text_appFiles
    rw [shownAs_appEntry]
    exact this
  refine ⟨canonical_appEntry, ?_, hmarked, ?_⟩
  · intro hstart
    rw [hstart] at hmarked
    cases hmarked
  · intro h
    exact h.unmarked hmarked

end Build

end ComponentTree
