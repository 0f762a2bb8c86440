import Mathlib.Data.Finset.Card
import Mathlib.Data.Finset.Dedup
import ComponentTree.Proofs.Build.Closure

/-!
This module contains what visiting an entry costs at most. Visits that are under way inside each
other are one for each candidate that is still unmarked, one for the entry and one that finds
nothing new; and the nodes that are added are canonical paths of candidates, but for the one of the
entry.
-/

namespace ComponentTree

def Loader.canonicalForms (loader : Loader) (paths : List Path) : Finset (List Path.Component) :=
  (paths.filterMap fun p => (loader.canonical p).toOption.map Path.components).toFinset

namespace Loader

variable {loader : Loader}

theorem mem_canonicalForms {paths : List Path} {p node : Path} (hp : p ∈ paths)
    (hcanonical : loader.canonical p = .ok node) :
    node.components ∈ loader.canonicalForms paths := by
  unfold canonicalForms
  rw [List.mem_toFinset, List.mem_filterMap]
  refine ⟨p, hp, ?_⟩
  rw [hcanonical]
  rfl

theorem canonicalForms_subset {paths paths' : List Path} (h : paths ⊆ paths') :
    loader.canonicalForms paths ⊆ loader.canonicalForms paths' := by
  intro form hform
  unfold canonicalForms at hform ⊢
  rw [List.mem_toFinset, List.mem_filterMap] at hform ⊢
  rcases hform with ⟨p, hp, hcanonical⟩
  exact ⟨p, h hp, hcanonical⟩

theorem canonicalForms_append (paths paths' : List Path) :
    loader.canonicalForms (paths ++ paths')
      = loader.canonicalForms paths ∪ loader.canonicalForms paths' := by
  unfold canonicalForms
  rw [List.filterMap_append, List.toFinset_append]

theorem card_canonicalForms_le (loader : Loader) (paths : List Path) :
    (loader.canonicalForms paths).card ≤ paths.length := by
  apply (List.toFinset_card_le _).trans
  apply List.length_filterMap_le

theorem card_canonicalForms_append_le (loader : Loader) (paths paths' : List Path) :
    (loader.canonicalForms (paths ++ paths')).card
      ≤ paths.length + (loader.canonicalForms paths').card := by
  rw [canonicalForms_append]
  have := Finset.card_union_le (loader.canonicalForms paths) (loader.canonicalForms paths')
  have := card_canonicalForms_le loader paths
  omega

end Loader

namespace Graph

def forms (g : Graph) : Finset (List Path.Component) :=
  (g.nodes.map (·.path.components)).toFinset

theorem mem_forms_iff {g : Graph} {p : Path} : p.components ∈ g.forms ↔ g.contains p := by
  rw [forms, List.mem_toFinset, contains_iff]

theorem card_forms (g : Graph) : g.forms.card = g.size := by
  rw [forms, List.toFinset_card_of_nodup g.nodup, List.length_map]
  rfl

theorem size_le_card {g : Graph} {s : Finset (List Path.Component)}
    (h : ∀ p, g.contains p → p.components ∈ s) : g.size ≤ s.card := by
  rw [← card_forms]
  apply Finset.card_le_card
  intro form hform
  rw [forms, List.mem_toFinset, List.mem_map] at hform
  rcases hform with ⟨node, hnode, rfl⟩
  apply h
  rw [contains_iff]
  exact List.mem_map_of_mem hnode

end Graph

namespace Build

variable {candidates : CandidateSet} {loader : Loader}

section Depth

/--
Visit a path and, one inside the other, the files that its names stand for, with at most `depth`
visits under way at a time. Nothing comes of it if that is not enough.
-/
def visitNested (candidates : CandidateSet) (loader : Loader) :
    (depth : Nat) → Progress → Path → Option Progress
  | 0, _, _ => none
  | depth + 1, s, p =>
    let opened := openSource loader s p
    opened.2.foldlM (fun s x =>
      match candidates.resolve? x.name with
      | none => some (s.log (.unresolved x.name x.node))
      | some target => visitNested candidates loader depth (s.link x.node target x.name) target)
      opened.1

def addEntryNested (candidates : CandidateSet) (loader : Loader) (depth : Nat) (s : Progress)
    (entry : Path) : Option (Path × Progress) :=
  match loader.canonical entry with
  | .ok root => (visitNested candidates loader depth s root).map (root, ·)
  | .error fault =>
    let root := (entry.absolute? loader.workingDirectory).getD entry
    (visitNested candidates loader depth (s.log (.entryMissed entry fault)) root).map (root, ·)

theorem follow_append (s : Progress) (xs ys : List Pending) :
    follow candidates loader s (xs ++ ys)
      = follow candidates loader (follow candidates loader s xs) ys := by
  induction s, xs using follow.induct candidates loader with
  | case1 s => rw [List.nil_append, follow]
  | case2 s node name pending hname ih =>
    rw [List.cons_append, follow_cons, follow_cons]
    simp only [followOne, hname, List.nil_append]
    exact ih
  | case3 s node name pending target hname hmem opened ih =>
    rw [List.cons_append, follow_cons, follow_cons]
    simp only [followOne, hname]
    rw [← List.append_assoc]
    exact ih

theorem follow_cons_of_resolve?_eq_some {s : Progress} {x : Pending} {target : Path}
    (h : candidates.resolve? x.name = some target) (pending : List Pending) :
    follow candidates loader s (x :: pending)
      = follow candidates loader
          (visit candidates loader (s.link x.node target x.name) target) pending := by
  rw [follow_cons, follow_append]
  simp only [followOne, h, visit]

theorem unmarkedCount_le_of_contains {g g' : Graph} (h : ∀ k, g.contains k → g'.contains k) :
    unmarkedCount candidates loader g' ≤ unmarkedCount candidates loader g := by
  apply List.countP_mono_left
  intro file _ hfile
  unfold isUnmarked at hfile ⊢
  split at hfile
  next => contradiction
  next node _ =>
    rw [Bool.not_eq_true'] at hfile ⊢
    by_contra hmarked
    rw [h node (by simpa using hmarked)] at hfile
    contradiction

theorem foldlM_eq_some_follow {depth : Nat}
    (hvisit : ∀ s p, p ∈ candidates.files → unmarkedCount candidates loader s.graph < depth →
      visitNested candidates loader depth s p = some (visit candidates loader s p))
    (pending : List Pending) {s : Progress} (h : unmarkedCount candidates loader s.graph < depth) :
    pending.foldlM (fun s x =>
      match candidates.resolve? x.name with
      | none => some (s.log (.unresolved x.name x.node))
      | some target => visitNested candidates loader depth (s.link x.node target x.name) target) s
      = some (follow candidates loader s pending) := by
  induction pending generalizing s with
  | nil => rw [follow]; rfl
  | cons x pending ih =>
    rw [List.foldlM_cons]
    cases hname : candidates.resolve? x.name with
    | none =>
      rw [follow_cons]
      simp only [followOne, hname]
      apply ih
      exact h
    | some target =>
      have hlink : unmarkedCount candidates loader (s.link x.node target x.name).graph < depth := by
        rw [Progress.graph_link, unmarkedCount_link]
        exact h
      simp only [hvisit _ _ (CandidateSet.mem_of_resolve? hname) hlink]
      rw [follow_cons_of_resolve?_eq_some hname]
      apply ih
      -- A visit marks more, so what was left unmarked by the name before bounds what is left now.
      apply Nat.lt_of_le_of_lt _ hlink
      apply unmarkedCount_le_of_contains
      intro k
      apply contains_visit

theorem visitNested_of_mem {depth : Nat} {s : Progress} {p : Path} (hp : p ∈ candidates.files)
    (h : unmarkedCount candidates loader s.graph < depth) :
    visitNested candidates loader depth s p = some (visit candidates loader s p) := by
  induction depth generalizing s p with
  | zero => omega
  | succ depth ih =>
    unfold visitNested visit
    rcases openSource_progress candidates loader s hp with hlt | ⟨_, hnone⟩
    · apply foldlM_eq_some_follow
      · intro s p
        apply ih
      · omega
    · simp only [hnone]
      rw [follow]
      rfl

theorem visitNested_eq_some {depth : Nat} {s : Progress} (p : Path)
    (h : unmarkedCount candidates loader s.graph + 2 ≤ depth) :
    visitNested candidates loader depth s p = some (visit candidates loader s p) := by
  obtain ⟨depth, rfl⟩ : ∃ d, depth = d + 1 := ⟨depth - 1, by omega⟩
  unfold visitNested visit
  apply foldlM_eq_some_follow
  · intro s p
    apply visitNested_of_mem
  · have : unmarkedCount candidates loader (openSource loader s p).1.graph
        ≤ unmarkedCount candidates loader s.graph := by
      apply unmarkedCount_le_of_contains
      intro k
      apply contains_of_opened opened_openSource
    omega

theorem addEntryNested_eq_some {depth : Nat} {s : Progress} (entry : Path)
    (h : unmarkedCount candidates loader s.graph + 2 ≤ depth) :
    addEntryNested candidates loader depth s entry = some (addEntry candidates loader s entry) := by
  unfold addEntryNested addEntry
  cases loader.canonical entry with
  | ok root =>
    simp only [visitNested_eq_some root h, Option.map_some]
  | error fault =>
    have hlog : unmarkedCount candidates loader (s.log (.entryMissed entry fault)).graph + 2
        ≤ depth := h
    simp only [visitNested_eq_some _ hlog, Option.map_some]

end Depth

section Size

variable {s : Progress} {p k : Path}

theorem contains_or_mem_of_opened {result : Progress × List Pending}
    (hopened : Opened loader s p result) (hk : result.1.graph.contains k) :
    s.graph.contains k ∨ k.components ∈ loader.canonicalForms [p] := by
  cases hopened with
  | missed => exact .inl hk
  | revisited => exact .inl hk
  | unread => exact .inl hk
  | @visited node _ hcanonical =>
    rw [Graph.contains_mark, Bool.or_eq_true, decide_eq_true_eq] at hk
    cases hk with
    | inl hold => exact .inl hold
    | inr hsame =>
      right
      rw [← hsame]
      exact Loader.mem_canonicalForms List.mem_cons_self hcanonical

theorem contains_or_mem_of_visit (hk : (visit candidates loader s p).graph.contains k) :
    s.graph.contains k ∨ k.components ∈ loader.canonicalForms (p :: candidates.files) := by
  have hmono : ∀ q ∈ p :: candidates.files, ∀ form ∈ loader.canonicalForms [q],
      form ∈ loader.canonicalForms (p :: candidates.files) := by
    intro q hq form hform
    apply Loader.canonicalForms_subset _ hform
    simpa using hq
  apply follow_invariant (P := fun s' _ => ∀ k, s'.graph.contains k →
    s.graph.contains k ∨ k.components ∈ loader.canonicalForms (p :: candidates.files)) _ _ k hk
  · intro s' x _ h k hk
    unfold followOne at hk
    split at hk
    next => exact h k hk
    next target hname =>
      cases contains_or_mem_of_opened opened_openSource hk with
      | inl hold =>
        rw [Progress.graph_link, Graph.contains_link] at hold
        exact h k hold
      | inr hnew =>
        right
        apply hmono target _ _ hnew
        exact List.mem_cons_of_mem _ (CandidateSet.mem_of_resolve? hname)
  · intro k hk
    cases contains_or_mem_of_opened opened_openSource hk with
    | inl hold => exact .inl hold
    | inr hnew => exact .inr (hmono p List.mem_cons_self _ hnew)

theorem size_visit_le (s : Progress) (p : Path) : (visit candidates loader s p).graph.size
    ≤ s.graph.size + (loader.canonicalForms candidates.files).card + 1 := by
  have hsize : (visit candidates loader s p).graph.size
      ≤ (s.graph.forms ∪ loader.canonicalForms (p :: candidates.files)).card := by
    apply Graph.size_le_card
    intro k hk
    rw [Finset.mem_union, Graph.mem_forms_iff]
    exact contains_or_mem_of_visit hk
  have hunion := Finset.card_union_le s.graph.forms (loader.canonicalForms (p :: candidates.files))
  have hforms := loader.card_canonicalForms_append_le [p] candidates.files
  rw [List.singleton_append, List.length_singleton] at hforms
  rw [Graph.card_forms] at hunion
  omega

theorem size_addEntry_le (s : Progress) (entry : Path) :
    (addEntry candidates loader s entry).2.graph.size
      ≤ s.graph.size + (loader.canonicalForms candidates.files).card + 1 := by
  unfold addEntry
  split
  next root _ => exact size_visit_le s root
  next fault _ => exact size_visit_le (s.log (.entryMissed entry fault)) _

theorem size_addEntries_le (entries : List Path) :
    (addEntries candidates loader .start entries).2.graph.size
      ≤ (loader.canonicalForms candidates.files).card + entries.length := by
  have h : ∀ k, (addEntries candidates loader .start entries).2.graph.contains k →
      k.components ∈ loader.canonicalForms
        ((addEntries candidates loader .start entries).1 ++ candidates.files) := by
    refine addEntries_invariant (P := fun roots s => ∀ k, s.graph.contains k →
      k.components ∈ loader.canonicalForms (roots ++ candidates.files)) ?_ ?_ [] .start ?_ entries
    · intro roots s entry fault h
      exact h
    · intro roots s p h k hk
      cases contains_or_mem_of_visit hk with
      | inl hold =>
        apply Loader.canonicalForms_subset _ (h k hold)
        simp
      | inr hnew =>
        apply Loader.canonicalForms_subset _ hnew
        simp
    · intro k hk
      cases hk
  have hsize := Graph.size_le_card h
  have hforms := loader.card_canonicalForms_append_le
    (addEntries candidates loader .start entries).1 candidates.files
  have hroots : (addEntries candidates loader .start entries).1.length = entries.length := by
    rw [addEntries_fst, List.length_map]
  omega

end Size

theorem addEntryNested_eq_some_and_size_le (candidates : CandidateSet) (loader : Loader)
    (earlier : List Path) (entry : Path) :
    let before := (addEntries candidates loader .start earlier).2
    let count := (loader.canonicalForms candidates.files).card
    addEntryNested candidates loader (candidates.files.length + 2) before entry
        = some (addEntry candidates loader before entry)
      ∧ (addEntry candidates loader before entry).2.graph.size ≤ before.graph.size + (count + 1)
      ∧ before.graph.size ≤ count + earlier.length := by
  intro before count
  refine ⟨?_, ?_, ?_⟩
  · apply addEntryNested_eq_some
    apply Nat.add_le_add_right
    exact List.countP_le_length
  · exact size_addEntry_le before entry
  · exact size_addEntries_le earlier

end Build

end ComponentTree
