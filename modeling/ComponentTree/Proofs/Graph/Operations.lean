import Mathlib.Data.List.Forall2
import Mathlib.Data.List.Induction
import Mathlib.Data.List.TakeWhile
import ComponentTree.Proofs.Graph.Equality

/-!
This module contains what a graph is after any marks and links in a row, told from the operations
alone: which paths it has marked, and which dependencies each of them has. Operations on different
paths do not interfere with each other.
-/

namespace ComponentTree.Graph

inductive Operation where
  | mark (p : Path)
  | link (source target : Path)

namespace Operation

def subject : Operation → Path
  | mark p => p
  | link source _ => source

def marked? : Operation → Option Path
  | mark p => some p
  | link _ _ => none

def target? : Operation → Option Path
  | mark _ => none
  | link _ target => some target

def Same (op other : Operation) : Prop :=
  op.subject.Same other.subject ∧
    op.target?.map Path.components = other.target?.map Path.components

end Operation

def IsMarkedBy (p : Path) (ops : List Operation) : Prop :=
  ∃ q, .mark q ∈ ops ∧ q.Same p

def operationsOn (p : Path) (ops : List Operation) : List Operation :=
  ops.filter fun op => op.subject.Same p

/-- The targets of the links from `p`, without those before the first mark of `p`. -/
def linkedTargets (p : Path) (ops : List Operation) : List Path :=
  ((operationsOn p ops).dropWhile (·.target?.isSome)).filterMap Operation.target?

def perform? (g : Graph) : Operation → Option Graph
  | .mark p => g.mark? p
  | .link source target => g.link? source target

def perform (g : Graph) (op : Operation) : Graph :=
  (g.perform? op).getD g

def ofOperations (ops : List Operation) : Graph :=
  ops.foldl perform empty

variable {g : Graph} {p q source target : Path} {op : Operation} {ops others : List Operation}

/-! ### Steps -/

theorem perform_mark (g : Graph) (p : Path) : g.perform (.mark p) = g.mark p := rfl

theorem perform_link (g : Graph) (source target : Path) :
    g.perform (.link source target) = g.link source target := rfl

theorem ofOperations_append_singleton (ops : List Operation) (op : Operation) :
    ofOperations (ops ++ [op]) = (ofOperations ops).perform op := by
  rw [ofOperations, List.foldl_append]
  rfl

theorem link_of_not_contains (h : ¬g.contains source) : g.link source target = g := by
  have hnone : g.node? source = none := by simpa [contains] using h
  rw [link, link?, hnone]
  rfl

theorem any_paths (g : Graph) (p : Path) : (g.paths.any fun q => p.Same q) = g.contains p := by
  rw [Bool.eq_iff_iff, contains_iff, paths, List.any_map, List.any_eq_true, List.mem_map]
  apply exists_congr
  intro node
  rw [Function.comp_apply, decide_eq_true_eq]
  exact and_congr_right' eq_comm

theorem mark?_isSome_iff : (g.mark? p).isSome = true ↔ ¬g.contains p := by
  unfold mark?
  split
  next h => simp [h]
  next h => simp [h]

theorem any_same_iff {targets : List Path} : (targets.any fun q => p.Same q) = true ↔
    p.components ∈ targets.map Path.components := by
  rw [List.any_eq_true, List.mem_map]
  apply exists_congr
  intro q
  rw [decide_eq_true_eq]
  exact and_congr_right' eq_comm

theorem link?_isSome_iff : (g.link? source target).isSome = true ↔
    g.contains source ∧ ¬((g.dependencies source).any fun q => target.Same q) = true := by
  rw [any_same_iff]
  unfold link? contains dependencies
  cases g.node? source with
  | none => simp
  | some node =>
    rw [← Node.hasTarget_iff]
    by_cases h : node.hasTarget target
    · simp [h]
    · simp [h]

theorem not_sameAs_mark (h : ¬g.contains p) : ¬(g.mark p).sameAs g = true := by
  intro hsame
  have hcontains := (sameAs_iff.1 hsame p).1
  rw [contains_mark, decide_eq_true (Path.Same.refl p), Bool.or_true] at hcontains
  exact h hcontains.symm

theorem not_sameAs_link (h : g.contains source)
    (hnew : ¬((g.dependencies source).any fun q => target.Same q) = true) :
    ¬(g.link source target).sameAs g = true := by
  intro hsame
  have hdependencies := (sameAs_iff.1 hsame source).2
  rw [dependencies_link_self g target h, if_neg hnew, List.map_append] at hdependencies
  have := congrArg List.length hdependencies
  simp at this

theorem perform?_isSome_iff (g : Graph) (op : Operation) :
    (g.perform? op).isSome = true ↔ ¬(g.perform op).sameAs g = true := by
  constructor
  · cases op with
    | mark p => exact fun h => not_sameAs_mark (mark?_isSome_iff.1 h)
    | link source target =>
      intro h
      have := link?_isSome_iff.1 h
      exact not_sameAs_link this.1 this.2
  · intro h
    by_contra hnone
    apply h
    rw [perform, Option.not_isSome_iff_eq_none.1 hnone]
    exact sameAs_refl g

/-! ### Marks -/

theorem contains_ofOperations_iff :
    (ofOperations ops).contains p = true ↔ IsMarkedBy p ops := by
  induction ops using List.reverseRecOn with
  | nil => simp [ofOperations, IsMarkedBy]
  | append_singleton ops op ih =>
    rw [ofOperations_append_singleton]
    cases op with
    | mark q =>
      rw [perform_mark, contains_mark, Bool.or_eq_true, ih, decide_eq_true_eq]
      constructor
      · rintro (⟨q', hq', h⟩ | h)
        · exact ⟨q', List.mem_append_left _ hq', h⟩
        · exact ⟨q, List.mem_append_right _ (List.mem_singleton.2 rfl), h⟩
      · rintro ⟨q', hq', h⟩
        rcases List.mem_append.1 hq' with hq' | hq'
        · exact .inl ⟨q', hq', h⟩
        · cases List.mem_singleton.1 hq'
          exact .inr h
    | link source target =>
      rw [perform_link, contains_link, ih]
      simp [IsMarkedBy]

theorem paths_ofOperations (ops : List Operation) : (ofOperations ops).paths
    = (ops.filterMap Operation.marked?).eraseDupsBy fun p q => p.Same q := by
  induction ops using List.reverseRecOn with
  | nil => rfl
  | append_singleton ops op ih =>
    rw [ofOperations_append_singleton, List.filterMap_append]
    cases op with
    | mark p =>
      have hmarked : [Operation.mark p].filterMap Operation.marked? = [p] := rfl
      rw [perform_mark, hmarked, eraseDupsBy_append_singleton, ← ih, any_paths]
      split
      next h => rw [mark, mark?, dif_pos h, Option.getD_none]
      next h => exact paths_mark _ h
    | link source target =>
      have hnone : [Operation.link source target].filterMap Operation.marked? = [] := rfl
      rw [perform_link, paths_link, hnone, List.append_nil, ih]

/-! ### Links -/

theorem operationsOn_append (p : Path) (ops others : List Operation) :
    operationsOn p (ops ++ others) = operationsOn p ops ++ operationsOn p others :=
  List.filter_append _ _

theorem operationsOn_singleton (h : op.subject.Same p) : operationsOn p [op] = [op] :=
  List.filter_cons_of_pos (decide_eq_true h)

theorem linkedTargets_singleton (p : Path) (op : Operation) : linkedTargets p [op] = [] := by
  by_cases h : op.subject.Same p
  · rw [linkedTargets, operationsOn_singleton h]
    cases op with
    | mark q => rfl
    | link source target => rfl
  · have hnone : operationsOn p [op] = [] := List.filter_cons_of_neg (by simpa using h)
    rw [linkedTargets, hnone]
    rfl

theorem not_isMarkedBy_iff :
    ¬IsMarkedBy p ops ↔ ∀ op ∈ operationsOn p ops, op.target?.isSome = true := by
  constructor
  · intro hmarked op hop
    rcases List.mem_filter.1 hop with ⟨hmem, hsame⟩
    cases op with
    | mark q => exact absurd ⟨q, hmem, of_decide_eq_true hsame⟩ hmarked
    | link source target => rfl
  · rintro hlinks ⟨q, hmem, hsame⟩
    cases hlinks (.mark q) (List.mem_filter.2 ⟨hmem, decide_eq_true hsame⟩)

theorem linkedTargets_append_of_not_isMarkedBy (h : ¬IsMarkedBy p ops) (others : List Operation) :
    linkedTargets p (ops ++ others) = linkedTargets p others := by
  rw [linkedTargets, operationsOn_append, List.dropWhile_append_of_pos (not_isMarkedBy_iff.1 h)]
  rfl

theorem linkedTargets_append_of_isMarkedBy (h : IsMarkedBy p ops) (others : List Operation) :
    linkedTargets p (ops ++ others)
      = linkedTargets p ops ++ (operationsOn p others).filterMap Operation.target? := by
  have hne : (operationsOn p ops).dropWhile (·.target?.isSome) ≠ [] := by
    intro hnil
    exact not_isMarkedBy_iff.2 (List.dropWhile_eq_nil_iff.1 hnil) h
  rw [linkedTargets, operationsOn_append, List.dropWhile_append, if_neg (by simpa using hne),
    List.filterMap_append]
  rfl

theorem linkedTargets_append_singleton (h : ¬IsMarkedBy p ops ∨ op.target? = none ∨
    ¬op.subject.Same p) : linkedTargets p (ops ++ [op]) = linkedTargets p ops := by
  by_cases hmarked : IsMarkedBy p ops
  · rw [linkedTargets_append_of_isMarkedBy hmarked, List.append_right_eq_self]
    apply List.filterMap_eq_nil_iff.2
    intro other hother
    obtain ⟨hmem, hsame⟩ := List.mem_filter.1 hother
    cases List.mem_singleton.1 hmem
    rcases h with h | h | h
    · exact absurd hmarked h
    · exact h
    · exact absurd (of_decide_eq_true hsame) h
  · have hnil := linkedTargets_append_of_not_isMarkedBy hmarked []
    rw [List.append_nil] at hnil
    rw [linkedTargets_append_of_not_isMarkedBy hmarked, linkedTargets_singleton, hnil]
    rfl

theorem dependencies_ofOperations (ops : List Operation) (p : Path) :
    (ofOperations ops).dependencies p
      = (linkedTargets p ops).eraseDupsBy fun p q => p.Same q := by
  induction ops using List.reverseRecOn with
  | nil => rfl
  | append_singleton ops op ih =>
    rw [ofOperations_append_singleton]
    cases op with
    | mark q =>
      rw [perform_mark, dependencies_mark, ih, linkedTargets_append_singleton (.inr (.inl rfl))]
    | link source target =>
      rw [perform_link]
      -- The link changes the node of `p` if it links from `p` and `p` is marked by then.
      by_cases hsame : p.Same source
      · by_cases hmarked : IsMarkedBy p ops
        · have hcontains : (ofOperations ops).contains source := by
            rw [← contains_congr _ hsame]
            exact contains_ofOperations_iff.2 hmarked
          have hop : operationsOn p [.link source target] = [.link source target] :=
            operationsOn_singleton hsame.symm
          rw [dependencies_congr _ hsame, dependencies_link_self _ _ hcontains,
            ← dependencies_congr _ hsame, ih, linkedTargets_append_of_isMarkedBy hmarked, hop]
          exact (eraseDupsBy_append_singleton _ _ _).symm
        · have hcontains : ¬(ofOperations ops).contains source := by
            rw [← contains_congr _ hsame]
            exact mt contains_ofOperations_iff.1 hmarked
          rw [link_of_not_contains hcontains, ih, linkedTargets_append_singleton (.inl hmarked)]
      · rw [dependencies_link_of_not_same _ target hsame, ih,
          linkedTargets_append_singleton (.inr (.inr fun h => hsame h.symm))]

/-! ### Independence -/

theorem Operation.Same.isSome_target? {op other : Operation} (h : op.Same other) :
    op.target?.isSome = other.target?.isSome := by
  have := congrArg Option.isSome h.2
  rwa [Option.isSome_map, Option.isSome_map] at this

theorem map_filterMap_target?_congr (h : List.Forall₂ Operation.Same ops others) :
    (ops.filterMap Operation.target?).map Path.components
      = (others.filterMap Operation.target?).map Path.components := by
  rw [List.map_filterMap, List.map_filterMap]
  induction h with
  | nil => rfl
  | cons h _ ih => rw [List.filterMap_cons, List.filterMap_cons, h.2, ih]

theorem dropWhile_isSome_target?_congr (h : List.Forall₂ Operation.Same ops others) :
    List.Forall₂ Operation.Same (ops.dropWhile (·.target?.isSome))
      (others.dropWhile (·.target?.isSome)) := by
  induction h with
  | nil => exact .nil
  | cons h hrest ih =>
    rw [List.dropWhile_cons, List.dropWhile_cons, h.isSome_target?]
    split
    · exact ih
    · exact .cons h hrest

theorem isMarkedBy_congr
    (h : List.Forall₂ Operation.Same (operationsOn p ops) (operationsOn p others)) :
    IsMarkedBy p ops ↔ IsMarkedBy p others := by
  rw [← not_iff_not, not_isMarkedBy_iff, not_isMarkedBy_iff, ← List.dropWhile_eq_nil_iff,
    ← List.dropWhile_eq_nil_iff, ← List.length_eq_zero_iff,
    (dropWhile_isSome_target?_congr h).length_eq, List.length_eq_zero_iff]

theorem sameAs_ofOperations (h : ∀ p,
    List.Forall₂ Operation.Same (operationsOn p ops) (operationsOn p others)) :
    (ofOperations ops).sameAs (ofOperations others) = true := by
  apply sameAs_iff.2
  intro p
  constructor
  · rw [Bool.eq_iff_iff, contains_ofOperations_iff, contains_ofOperations_iff,
      isMarkedBy_congr (h p)]
  · have htargets := map_filterMap_target?_congr (dropWhile_isSome_target?_congr (h p))
    have hsame (p q : Path) : decide (p.Same q) = (p.components == q.components) := by
      rw [Bool.eq_iff_iff, decide_eq_true_eq, beq_iff_eq]
      rfl
    rw [dependencies_ofOperations, dependencies_ofOperations, map_eraseDupsBy hsame,
      map_eraseDupsBy hsame, linkedTargets, linkedTargets, htargets]

theorem contains_ofOperations_iff_and_dependencies (ops : List Operation) :
    (∀ p, (ofOperations ops).contains p = true ↔ ∃ q, .mark q ∈ ops ∧ q.Same p) ∧
    (∀ p, (ofOperations ops).dependencies p
      = (linkedTargets p ops).eraseDupsBy fun p q => p.Same q) ∧
    (∀ op, ((ofOperations ops).perform? op).isSome = true ↔
      ¬((ofOperations ops).perform op).sameAs (ofOperations ops) = true) ∧
    (ofOperations ops).size
      = ((ops.filterMap Operation.marked?).eraseDupsBy fun p q => p.Same q).length ∧
    ∀ others, (∀ p, List.Forall₂ Operation.Same (operationsOn p ops) (operationsOn p others)) →
      (ofOperations ops).sameAs (ofOperations others) = true := by
  refine ⟨fun p => contains_ofOperations_iff, dependencies_ofOperations ops,
    perform?_isSome_iff _, ?_, fun others => sameAs_ofOperations⟩
  rw [← paths_ofOperations, paths, List.length_map]
  rfl

def appPath : Path := Path.ofText "/p/App.vue".toList

def navPath : Path := Path.ofText "/p/Nav.vue".toList

def navSpelling : Path := Path.ofText "/p//Nav.vue".toList

def appFirst : List Operation :=
  [.link appPath navPath, .mark appPath, .link appPath navPath, .mark navPath,
    .link appPath navSpelling, .mark navSpelling, .link navPath appPath]

def navFirst : List Operation :=
  [.mark navPath, .mark navPath, .link appPath navPath, .mark appPath,
    .link navSpelling appPath, .link appPath navPath, .link appPath navPath]

theorem contains_ofOperations_iff_and_dependencies_appFirst :
    (∀ p, List.Forall₂ Operation.Same (operationsOn p appFirst) (operationsOn p navFirst)) ∧
      (ofOperations appFirst).sameAs (ofOperations navFirst) = true := by
  have hspelling : navSpelling.components = navPath.components := by decide +kernel
  have hne : ¬appPath.Same navPath := by decide +kernel
  have hsame (p : Path) : List.Forall₂ Operation.Same (operationsOn p appFirst)
      (operationsOn p navFirst) := by
    have hnav' : navSpelling.Same p ↔ navPath.Same p := by rw [Path.Same, Path.Same, hspelling]
    by_cases happ : appPath.Same p
    · have hnav : ¬navPath.Same p := fun hnav => hne (happ.trans hnav.symm)
      simp [operationsOn, appFirst, navFirst, Operation.subject, Operation.Same, Operation.target?,
        happ, hnav, hnav', hspelling]
    · by_cases hnav : navPath.Same p
      · have hself : navPath.Same navSpelling ∧ navSpelling.Same navPath :=
          ⟨hspelling.symm, hspelling⟩
        simp [operationsOn, appFirst, navFirst, Operation.subject, Operation.Same,
          Operation.target?, happ, hnav, hnav', hself]
      · simp [operationsOn, appFirst, navFirst, Operation.subject, happ, hnav, hnav']
  exact ⟨hsame, (contains_ofOperations_iff_and_dependencies appFirst).2.2.2.2 navFirst hsame⟩

end ComponentTree.Graph
