import Mathlib.Algebra.GroupWithZero.Nat
import ComponentTree.Proofs.Build.Closure

/-!
This module contains how often each path is tried to be read while entries are visited: a node once,
and a path that cannot be read as often as the roots and the names in nodes lead to it, since its
failures are not remembered.
-/

namespace ComponentTree

def Loader.leadsTo (loader : Loader) (p q : Path) : Bool :=
  match loader.canonical q with
  | .ok node => node.Same p
  | .error _ => false

namespace Build

variable {candidates : CandidateSet} {loader : Loader} {roots : List Path}

def Progress.timesRead (s : Progress) (p : Path) : Nat :=
  s.attempts.countP fun q => q.Same p

def refersTo (candidates : CandidateSet) (loader : Loader) (p : Path) (name : Name) : Bool :=
  (candidates.resolve? name).any (loader.leadsTo p)

def referencesFrom (candidates : CandidateSet) (loader : Loader) (p k : Path) : Nat :=
  match loader.text k with
  | .ok source => (References.ofSource source).names.countP (refersTo candidates loader p)
  | .error _ => 0

def referenceCount (candidates : CandidateSet) (loader : Loader) (g : Graph) (p : Path) : Nat :=
  (g.paths.map (referencesFrom candidates loader p)).sum

theorem timesRead_log (s : Progress) (event : Event) (p : Path) : (s.log event).timesRead p
    = s.timesRead p + (event.attempted?.any (·.Same p)).toNat := by
  unfold Progress.timesRead Progress.attempts Progress.log
  rw [Array.toList_push, List.filterMap_append, List.countP_append]
  cases h : event.attempted? with
  | none => simp [h]
  | some q => by_cases hsame : q.Same p <;> simp [h, hsame]

theorem timesRead_visited (s : Progress) (g : Graph) (node p : Path) :
    ({ s.log (.visited node) with graph := g } : Progress).timesRead p
      = s.timesRead p + (decide (node.Same p)).toNat :=
  timesRead_log s (.visited node) p

theorem timesRead_link (s : Progress) (node target : Path) (name : Name) (p : Path) :
    (s.link node target name).timesRead p = s.timesRead p := by
  unfold Progress.link
  split
  next graph _ =>
    have := timesRead_log s (.linked node target name) p
    exact this
  next => rfl

theorem referenceCount_mark {g : Graph} {node : Path} (hfresh : ¬ g.contains node) (p : Path) :
    referenceCount candidates loader (g.mark node) p
      = referenceCount candidates loader g p + referencesFrom candidates loader p node := by
  unfold referenceCount
  rw [Graph.paths_mark g hfresh]
  simp

theorem referenceCount_link (g : Graph) (source target p : Path) :
    referenceCount candidates loader (g.link source target) p
      = referenceCount candidates loader g p := by
  unfold referenceCount
  rw [Graph.paths_link]

section Readable

variable {p : Path} {source : Text}

theorem timesRead_opened_of_readable (hloader : loader.Congruent)
    (hp : loader.text p = .ok source) {s : Progress} {q : Path} {result : Progress × List Pending}
    (hopened : Opened loader s q result) (h : s.timesRead p = (s.graph.contains p).toNat) :
    result.1.timesRead p = (result.1.graph.contains p).toNat := by
  cases hopened with
  | missed =>
    rw [timesRead_log, h]
    rfl
  | revisited =>
    rw [timesRead_log, h]
    rfl
  | @unread node fault _ _ htext =>
    have hne : ¬ node.Same p := by
      intro hsame
      rw [hloader.text hsame.symm hp] at htext
      contradiction
    rw [timesRead_log, h]
    simp [Event.attempted?, hne]
  | @visited node source' _ hfresh _ =>
    rw [timesRead_visited, h, Graph.contains_mark]
    by_cases hsame : node.Same p
    · rw [Graph.contains_congr _ hsame, Bool.not_eq_true] at hfresh
      simp [hfresh, hsame]
    · simp [hsame]

theorem timesRead_visit_of_readable (hloader : loader.Congruent) (hp : loader.text p = .ok source)
    {s : Progress} (q : Path) (h : s.timesRead p = (s.graph.contains p).toNat) :
    (visit candidates loader s q).timesRead p
      = ((visit candidates loader s q).graph.contains p).toNat := by
  apply follow_invariant (P := fun s _ => s.timesRead p = (s.graph.contains p).toNat)
  · intro s x pending h
    unfold followOne
    split
    next =>
      rw [timesRead_log, h]
      rfl
    next target _ =>
      apply timesRead_opened_of_readable hloader hp opened_openSource
      rw [timesRead_link, h, Progress.graph_link, Graph.contains_link]
  · exact timesRead_opened_of_readable hloader hp opened_openSource h

end Readable

section Unreadable

variable {p : Path} {fault : Fault}

theorem not_same_of_text (hloader : loader.Congruent) (hp : loader.text p = .error fault)
    {node : Path} {source : Text} (htext : loader.text node = .ok source) : ¬ node.Same p := by
  intro hsame
  rw [hloader.text hsame htext] at hp
  contradiction

theorem referencesFrom_eq {k : Path} {source : Text} (htext : loader.text k = .ok source) :
    referencesFrom candidates loader p k
      = (References.ofSource source).names.countP (refersTo candidates loader p) := by
  unfold referencesFrom
  rw [htext]

theorem timesRead_opened_of_unreadable (candidates : CandidateSet) (hloader : loader.Congruent)
    (hp : loader.text p = .error fault) {s : Progress}
    (hreadable : ∀ k, s.graph.contains k → ∃ source, loader.text k = .ok source) {q : Path}
    {result : Progress × List Pending} (hopened : Opened loader s q result) :
    result.1.timesRead p + result.2.countP (fun x => refersTo candidates loader p x.name)
        + referenceCount candidates loader s.graph p
      = s.timesRead p + (loader.leadsTo p q).toNat
        + referenceCount candidates loader result.1.graph p := by
  cases hopened with
  | missed hcanonical =>
    simp [timesRead_log, Event.attempted?, Loader.leadsTo, hcanonical]
  | @revisited node hcanonical hmarked =>
    rcases hreadable node hmarked with ⟨source, htext⟩
    have hne := not_same_of_text hloader hp htext
    simp [timesRead_log, Event.attempted?, Loader.leadsTo, hcanonical, hne]
  | unread hcanonical hfresh htext =>
    simp [timesRead_log, Event.attempted?, Loader.leadsTo, hcanonical]
  | @visited node source hcanonical hfresh htext =>
    have hne := not_same_of_text hloader hp htext
    have hnames : ((References.ofSource source).names.map (Pending.mk node)).countP
        (fun x => refersTo candidates loader p x.name)
        = referencesFrom candidates loader p node := by
      rw [referencesFrom_eq htext, List.countP_map]
      rfl
    simp only [timesRead_visited, hnames, referenceCount_mark hfresh, Loader.leadsTo, hcanonical,
      hne, decide_false, Bool.toNat_false]
    omega

theorem Underway.exists_text {g : Graph} {pending : List Pending}
    (h : Underway candidates loader .empty g pending) {k : Path} (hk : g.contains k) :
    ∃ source, loader.text k = .ok source := by
  rcases h.listed k hk (by simp) with ⟨source, _, htext, _⟩
  exact ⟨source, htext⟩

theorem timesRead_followOne_of_unreadable (hloader : loader.Congruent)
    (hp : loader.text p = .error fault) {s : Progress} {x : Pending} {pending : List Pending}
    (h : Underway candidates loader .empty s.graph (x :: pending)) :
    (followOne candidates loader s x).1.timesRead p
        + (followOne candidates loader s x).2.countP (fun x => refersTo candidates loader p x.name)
        + referenceCount candidates loader s.graph p
      = s.timesRead p + (refersTo candidates loader p x.name).toNat
        + referenceCount candidates loader (followOne candidates loader s x).1.graph p := by
  unfold followOne refersTo
  split
  next hname =>
    rw [hname, timesRead_log]
    simp [Event.attempted?]
  next target hname =>
    have hreadable : ∀ k, (s.link x.node target x.name).graph.contains k →
        ∃ source, loader.text k = .ok source := by
      intro k hk
      rw [Progress.graph_link, Graph.contains_link] at hk
      exact h.exists_text hk
    have := timesRead_opened_of_unreadable candidates hloader hp hreadable (q := target)
      opened_openSource
    rw [timesRead_link, Progress.graph_link, referenceCount_link] at this
    rw [hname]
    exact this

theorem timesRead_visit_of_unreadable (hloader : loader.Congruent)
    (hp : loader.text p = .error fault) {s : Progress}
    (h : Underway candidates loader .empty s.graph []) (q : Path) :
    (visit candidates loader s q).timesRead p + referenceCount candidates loader s.graph p
      = s.timesRead p + (loader.leadsTo p q).toNat
        + referenceCount candidates loader (visit candidates loader s q).graph p := by
  -- A name that leads to `p` is pending, or has been followed by an attempt to read `p`, so what was
  -- read and what is pending stay ahead of the names in nodes by the same amount.
  refine h.visit_invariant hloader (P := fun s' pending =>
    s'.timesRead p + pending.countP (fun x => refersTo candidates loader p x.name)
        + referenceCount candidates loader s.graph p
      = s.timesRead p + (loader.leadsTo p q).toNat
        + referenceCount candidates loader s'.graph p) ?_ ?_
  · intro s' x pending hunderway hcount
    have := timesRead_followOne_of_unreadable hloader hp hunderway
    rw [List.countP_append]
    rw [List.countP_cons] at hcount
    cases hx : refersTo candidates loader p x.name <;> simp [hx] at this hcount <;> omega
  · apply timesRead_opened_of_unreadable candidates hloader hp
    · intro k
      apply h.exists_text
    · exact opened_openSource

end Unreadable

theorem timesRead_addEntries_of_readable (hloader : loader.Congruent) {p : Path} {source : Text}
    (hp : loader.text p = .ok source) (entries : List Path) :
    (addEntries candidates loader .start entries).2.timesRead p
      = ((addEntries candidates loader .start entries).2.graph.contains p).toNat := by
  refine addEntries_invariant (P := fun _ s => s.timesRead p = (s.graph.contains p).toNat)
    ?_ ?_ [] .start rfl entries
  · intro roots s entry fault h
    rw [timesRead_log, h]
    rfl
  · intro roots s q h
    exact timesRead_visit_of_readable hloader hp q h

theorem timesRead_addEntries_of_unreadable (hloader : loader.Congruent) {p : Path} {fault : Fault}
    (hp : loader.text p = .error fault) (entries : List Path) :
    (addEntries candidates loader .start entries).2.timesRead p
      = (addEntries candidates loader .start entries).1.countP (loader.leadsTo p)
        + referenceCount candidates loader
            (addEntries candidates loader .start entries).2.graph p := by
  have h : Underway candidates loader .empty
        (addEntries candidates loader .start entries).2.graph []
      ∧ (addEntries candidates loader .start entries).2.timesRead p
        = (addEntries candidates loader .start entries).1.countP (loader.leadsTo p)
          + referenceCount candidates loader
              (addEntries candidates loader .start entries).2.graph p := by
    refine addEntries_invariant (P := fun roots s => Underway candidates loader .empty s.graph []
      ∧ s.timesRead p
        = roots.countP (loader.leadsTo p) + referenceCount candidates loader s.graph p)
      ?_ ?_ [] .start ⟨.start _, rfl⟩ entries
    · rintro roots s entry fault ⟨hunderway, hcount⟩
      refine ⟨hunderway, ?_⟩
      rw [timesRead_log, hcount]
      rfl
    · rintro roots s q ⟨hunderway, hcount⟩
      refine ⟨hunderway.visit hloader q, ?_⟩
      have := timesRead_visit_of_unreadable hloader hp hunderway q
      rw [List.countP_append, List.countP_singleton]
      cases hq : loader.leadsTo p q <;> simp [hq] at this ⊢ <;> omega
  exact h.2

theorem exists_visits_of_referenceCount_pos {g : Graph} {p : Path}
    (h : 0 < referenceCount candidates loader g p) :
    ∃ q, Visits candidates loader roots g q ∧ loader.leadsTo p q := by
  unfold referenceCount at h
  rcases List.sum_pos_iff_exists_pos_nat.1 h with ⟨count, hcount, hpos⟩
  rcases List.mem_map.1 hcount with ⟨k, hk, rfl⟩
  unfold referencesFrom at hpos
  split at hpos
  next source htext =>
    rcases List.countP_pos_iff.1 hpos with ⟨name, hname, hrefers⟩
    unfold refersTo at hrefers
    rw [Option.any_eq_true] at hrefers
    rcases hrefers with ⟨target, htarget, hleads⟩
    exact ⟨target, .target (Graph.contains_of_mem_paths g hk) htext hname htarget, hleads⟩
  next => contradiction

theorem timesRead_addEntries (candidates : CandidateSet) (loader : Loader)
    (hloader : loader.Congruent) (entries : List Path) :
    let built := addEntries candidates loader .start entries
    (∀ p, built.2.graph.contains p → built.2.timesRead p = 1)
      ∧ (∀ p fault, loader.text p = .error fault → built.2.timesRead p
        = built.1.countP (loader.leadsTo p) + referenceCount candidates loader built.2.graph p)
      ∧ ∀ p ∈ built.2.attempts, built.2.graph.contains p
        ∨ (∃ fault, loader.text p = .error fault)
          ∧ ∃ q, Visits candidates loader built.1 built.2.graph q ∧ loader.leadsTo p q := by
  intro built
  have h : Complete candidates loader built.1 built.2.graph := .addEntries hloader entries
  refine ⟨?_, ?_, ?_⟩
  · intro p hp
    rcases h.exists_text hp with ⟨source, htext, _⟩
    rw [timesRead_addEntries_of_readable hloader htext entries, hp]
    rfl
  · intro p fault hp
    exact timesRead_addEntries_of_unreadable hloader hp entries
  · intro p hp
    have hpos : 0 < built.2.timesRead p := by
      apply List.countP_pos_iff.2
      exact ⟨p, hp, by simp⟩
    cases htext : loader.text p with
    | ok source =>
      left
      have hcount : built.2.timesRead p = (built.2.graph.contains p).toNat :=
        timesRead_addEntries_of_readable hloader htext entries
      by_contra hfresh
      rw [Bool.not_eq_true] at hfresh
      rw [hcount, hfresh] at hpos
      contradiction
    | error fault =>
      right
      refine ⟨⟨fault, rfl⟩, ?_⟩
      have hcount : built.2.timesRead p = built.1.countP (loader.leadsTo p)
          + referenceCount candidates loader built.2.graph p :=
        timesRead_addEntries_of_unreadable hloader htext entries
      rw [hcount] at hpos
      rcases Nat.add_pos_iff_pos_or_pos.1 hpos with hroot | hname
      · rcases List.countP_pos_iff.1 hroot with ⟨r, hr, hleads⟩
        exact ⟨r, .root hr, hleads⟩
      · exact exists_visits_of_referenceCount_pos hname

theorem timesRead_addEntries_mutualFiles :
    let candidates := CandidateSet.ofList "vue".toList (mutualFiles.map (·.path))
    let loader := MemoryFile.loader mutualFiles []
    let built := addEntries candidates loader .start
      [.ofText "/p/A.vue".toList, .ofText "/p/Broken.vue".toList]
    loader.Congruent ∧ built.2.graph.contains (.ofText "/p/A.vue".toList)
      ∧ built.2.timesRead (.ofText "/p/A.vue".toList) = 1
      ∧ loader.text (.ofText "/p/Broken.vue".toList) = .error .accessDenied
      ∧ built.2.timesRead (.ofText "/p/Broken.vue".toList)
        = 1 + referenceCount candidates loader built.2.graph (.ofText "/p/Broken.vue".toList) := by
  intro candidates loader built
  have hloader : loader.Congruent := MemoryFile.congruent_loader mutualFiles []
  have hcanonical : loader.canonical (.ofText "/p/A.vue".toList)
      = .ok (.ofText "/p/A.vue".toList) := by decide +kernel
  have htext : loader.text (.ofText "/p/A.vue".toList)
      = .ok "<A /><B /><Broken />".toList := by decide +kernel
  have hbroken : loader.text (.ofText "/p/Broken.vue".toList) = .error .accessDenied := by
    decide +kernel
  have h : Complete candidates loader built.1 built.2.graph := .addEntries hloader _
  have hroots : built.1 = [.ofText "/p/A.vue".toList, .ofText "/p/Broken.vue".toList] := rfl
  have hmarked := h.closed.root (by simp [hroots]) hcanonical htext
  have haccount := timesRead_addEntries candidates loader hloader
    [.ofText "/p/A.vue".toList, .ofText "/p/Broken.vue".toList]
  rcases haccount with ⟨hread, htried, _⟩
  refine ⟨hloader, hmarked, hread _ hmarked, hbroken, ?_⟩
  have hone : built.1.countP (loader.leadsTo (.ofText "/p/Broken.vue".toList)) = 1 := by
    rw [hroots]
    decide +kernel
  rw [← hone]
  exact htried _ _ hbroken

end Build

end ComponentTree
