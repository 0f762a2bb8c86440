import ComponentTree.Proofs.Build.Underway

/-!
This module contains where the names of a source have led: to a path whose source is marked, if it
can be read, unless they are still to be followed. A visit stops at any source that is marked
already, also where that is still waiting for its own names to be followed, so nothing is said about
the names of what is found there.
-/

namespace ComponentTree.Build

variable {candidates : CandidateSet} {loader : Loader} {base g : Graph}

def Settled (loader : Loader) (g : Graph) (p : Path) : Prop :=
  ∀ node source, loader.canonical p = .ok node → loader.text node = .ok source → g.contains node

theorem Settled.mono {g' : Graph} {p : Path} (h : Settled loader g p)
    (hle : ∀ k, g.contains k → g'.contains k) : Settled loader g' p := by
  intro node source hcanonical htext
  apply hle
  exact h node source hcanonical htext

theorem settled_openSource (s : Progress) (p : Path) :
    Settled loader (openSource loader s p).1.graph p := by
  intro node source hcanonical htext
  unfold openSource
  simp only [hcanonical]
  split
  next hmarked => exact hmarked
  next =>
    simp only [htext]
    simp

theorem contains_of_opened {s : Progress} {k p : Path} {result : Progress × List Pending}
    (hopened : Opened loader s p result) (h : s.graph.contains k) :
    result.1.graph.contains k := by
  cases hopened with
  | visited =>
    rw [Graph.contains_mark, h]
    rfl
  | _ => exact h

theorem contains_followOne {s : Progress} {k : Path} (x : Pending) (h : s.graph.contains k) :
    (followOne candidates loader s x).1.graph.contains k := by
  unfold followOne
  split
  next => exact h
  next target _ =>
    apply contains_of_opened opened_openSource
    rw [Progress.graph_link, Graph.contains_link]
    exact h

theorem contains_visit {s : Progress} {k : Path} (p : Path) (h : s.graph.contains k) :
    (visit candidates loader s p).graph.contains k := by
  apply follow_invariant (P := fun s _ => s.graph.contains k)
  · intro s x pending
    apply contains_followOne
  · exact contains_of_opened opened_openSource h

theorem settled_visit (s : Progress) (p : Path) :
    Settled loader (visit candidates loader s p).graph p := by
  apply follow_invariant (P := fun s _ => Settled loader s.graph p)
  · intro s x pending h
    apply h.mono
    intro k
    apply contains_followOne
  · apply settled_openSource

theorem graph_visit_eq_iff (s : Progress) (p : Path) :
    (visit candidates loader s p).graph = s.graph
      ↔ ∀ node source, loader.canonical p = .ok node → loader.text node = .ok source →
        s.graph.contains node := by
  constructor
  · intro h
    rw [← h]
    exact settled_visit s p
  · intro h
    have hopened : (openSource loader s p).1.graph = s.graph ∧ (openSource loader s p).2 = [] := by
      generalize hresult : openSource loader s p = result
      have hopened : Opened loader s p result := hresult ▸ opened_openSource
      cases hopened with
      | visited hcanonical hfresh htext => exact absurd (h _ _ hcanonical htext) hfresh
      | _ => exact ⟨rfl, rfl⟩
    unfold visit
    simp only [hopened.2]
    rw [follow]
    exact hopened.1

def Covered (candidates : CandidateSet) (loader : Loader) (base g : Graph)
    (pending : List Pending) : Prop :=
  ∀ k source, g.contains k → ¬ base.contains k → loader.text k = .ok source →
    ∀ name ∈ (References.ofSource source).names, name ∈ namesAt k pending
      ∨ ∀ target, candidates.resolve? name = some target → Settled loader g target

namespace Covered

theorem start (base : Graph) : Covered candidates loader base base [] := by
  intro k source hk hbase
  contradiction

theorem tail {x : Pending} (new : List Pending) {pending : List Pending}
    (h : Covered candidates loader base g (new ++ x :: pending))
    (hx : ∀ target, candidates.resolve? x.name = some target → Settled loader g target) :
    Covered candidates loader base g (new ++ pending) := by
  intro k source hk hbase htext name hname
  cases h k source hk hbase htext name hname with
  | inr hsettled => exact .inr hsettled
  | inl hpending =>
    rw [namesAt_append, List.mem_append] at hpending ⊢
    by_cases hsame : x.node.Same k
    · rw [namesAt_cons_of_same hsame, List.mem_cons] at hpending
      rcases hpending with hnew | rfl | hold
      · exact .inl (.inl hnew)
      · exact .inr hx
      · exact .inl (.inr hold)
    · rw [namesAt_cons_of_not_same hsame] at hpending
      exact .inl hpending

theorem opened (hloader : loader.Congruent) {s : Progress} {pending : List Pending} {p : Path}
    {result : Progress × List Pending} (h : Covered candidates loader base s.graph pending)
    (hopened : Opened loader s p result) :
    Covered candidates loader base result.1.graph (result.2 ++ pending) := by
  cases hopened with
  | missed => exact h
  | revisited => exact h
  | unread => exact h
  | @visited node source' hcanonical hfresh htext' =>
    intro k source hk hbase htext name hname
    rw [namesAt_append, List.mem_append]
    by_cases hsame : node.Same k
    · rw [hloader.text hsame htext'] at htext
      cases htext
      rw [namesAt_map_of_same hsame]
      exact .inl (.inl hname)
    · rw [Graph.contains_mark, decide_eq_false hsame, Bool.or_false] at hk
      cases h k source hk hbase htext name hname with
      | inl hpending => exact .inl (.inr hpending)
      | inr hsettled =>
        refine .inr fun target htarget => (hsettled target htarget).mono fun k hk => ?_
        rw [Graph.contains_mark, hk]
        rfl

theorem followOne (hloader : loader.Congruent) {s : Progress} {x : Pending} {pending : List Pending}
    (h : Covered candidates loader base s.graph (x :: pending)) :
    Covered candidates loader base (followOne candidates loader s x).1.graph
      ((followOne candidates loader s x).2 ++ pending) := by
  unfold Build.followOne
  split
  next hname =>
    apply tail []
    · exact h
    · intro target htarget
      rw [hname] at htarget
      contradiction
  next target hname =>
    -- Linking marks nothing, so the name may be taken as pending until its target is open.
    have hlink : Covered candidates loader base (s.link x.node target x.name).graph
        (x :: pending) := by
      intro k source hk hbase htext name hmem
      unfold Settled
      simp only [Progress.graph_link, Graph.contains_link] at hk ⊢
      exact h k source hk hbase htext name hmem
    apply tail
    · exact hlink.opened hloader opened_openSource
    · intro target' htarget'
      rw [hname] at htarget'
      cases htarget'
      apply settled_openSource

theorem visit (hloader : loader.Congruent) {s : Progress}
    (h : Covered candidates loader base s.graph []) (p : Path) :
    Covered candidates loader base (visit candidates loader s p).graph [] := by
  apply follow_invariant (P := fun s pending => Covered candidates loader base s.graph pending)
  · intro s x pending
    apply followOne hloader
  · have := h.opened hloader (p := p) opened_openSource
    rw [List.append_nil] at this
    exact this

end Covered

end ComponentTree.Build
