import ComponentTree.Build

/-!
This module contains the building of the graph step by step: what opening a path comes to, what
following a single name comes to, and how what every such step keeps is kept by a whole run.
-/

namespace ComponentTree.Build

variable {candidates : CandidateSet} {loader : Loader}

inductive Opened (loader : Loader) (s : Progress) (p : Path) : Progress × List Pending → Prop where
  | missed {fault : Fault} (hcanonical : loader.canonical p = .error fault) :
    Opened loader s p (s.log (.missed p fault), [])
  | revisited {node : Path} (hcanonical : loader.canonical p = .ok node)
      (hmarked : s.graph.contains node) :
    Opened loader s p (s.log (.revisited node), [])
  | unread {node : Path} {fault : Fault} (hcanonical : loader.canonical p = .ok node)
      (hfresh : ¬ s.graph.contains node) (htext : loader.text node = .error fault) :
    Opened loader s p (s.log (.unread node fault), [])
  | visited {node : Path} {source : Text} (hcanonical : loader.canonical p = .ok node)
      (hfresh : ¬ s.graph.contains node) (htext : loader.text node = .ok source) :
    Opened loader s p ({ s.log (.visited node) with graph := s.graph.mark node },
      (References.ofSource source).names.map (Pending.mk node))

theorem opened_openSource {s : Progress} {p : Path} :
    Opened loader s p (openSource loader s p) := by
  unfold openSource
  split
  next fault hcanonical => exact .missed hcanonical
  next node hcanonical =>
    split
    next hmarked => exact .revisited hcanonical hmarked
    next hfresh =>
      split
      next fault htext => exact .unread hcanonical hfresh htext
      next source htext => exact .visited hcanonical hfresh htext

def followOne (candidates : CandidateSet) (loader : Loader) (s : Progress) (x : Pending) :
    Progress × List Pending :=
  match candidates.resolve? x.name with
  | none => (s.log (.unresolved x.name x.node), [])
  | some target => openSource loader (s.link x.node target x.name) target

theorem follow_cons (s : Progress) (x : Pending) (pending : List Pending) :
    follow candidates loader s (x :: pending)
      = follow candidates loader (followOne candidates loader s x).1
          ((followOne candidates loader s x).2 ++ pending) := by
  rcases x with ⟨node, name⟩
  rw [follow]
  unfold followOne
  split <;> simp only [*, List.nil_append]

theorem follow_invariant {P : Progress → List Pending → Prop}
    (hstep : ∀ s x pending, P s (x :: pending) →
      P (followOne candidates loader s x).1 ((followOne candidates loader s x).2 ++ pending))
    {s : Progress} {pending : List Pending} (h : P s pending) :
    P (follow candidates loader s pending) [] := by
  induction s, pending using follow.induct candidates loader with
  | case1 s =>
    rw [follow]
    exact h
  | case2 s node name pending hname ih =>
    have := hstep _ _ _ h
    rw [follow_cons]
    unfold followOne at this ⊢
    simp only [hname] at this ⊢
    exact ih this
  | case3 s node name pending target hname hmem opened ih =>
    have := hstep _ _ _ h
    rw [follow_cons]
    unfold followOne at this ⊢
    simp only [hname] at this ⊢
    exact ih this

theorem addEntries_invariant {P : List Path → Progress → Prop}
    (hlog : ∀ roots s entry fault, P roots s → P roots (s.log (.entryMissed entry fault)))
    (hvisit : ∀ roots s p, P roots s → P (roots ++ [p]) (visit candidates loader s p))
    (roots : List Path) (s : Progress) (h : P roots s) (entries : List Path) :
    P (roots ++ (addEntries candidates loader s entries).1)
      (addEntries candidates loader s entries).2 := by
  induction entries generalizing roots s with
  | nil =>
    simp only [addEntries, List.append_nil]
    exact h
  | cons entry entries ih =>
    have hentry : P (roots ++ [(addEntry candidates loader s entry).1])
        (addEntry candidates loader s entry).2 := by
      unfold addEntry
      split
      next root _ =>
        apply hvisit
        exact h
      next fault _ =>
        apply hvisit
        apply hlog
        exact h
    have := ih _ _ hentry
    rw [List.append_assoc] at this
    exact this

end ComponentTree.Build
