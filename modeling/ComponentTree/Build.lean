import ComponentTree.CandidateSet
import ComponentTree.Graph
import ComponentTree.Loader
import ComponentTree.Source

/-!
This module contains the building of the dependency graph, depth first from the entries. A source is
marked before its names are followed, which is what ends a cycle of references; a file that cannot
be read is not remembered, and is tried again at the next reference to it.
-/

namespace ComponentTree

namespace Build

inductive Event where
  | entryMissed (entry : Path) (fault : Fault)
  | missed (path : Path) (fault : Fault)
  | revisited (node : Path)
  | unread (node : Path) (fault : Fault)
  | visited (node : Path)
  | unresolved (name : Name) (node : Path)
  | linked (source target : Path) (name : Name)

def Event.attempted? : Event → Option Path
  | unread node _ => some node
  | visited node => some node
  | _ => none

structure Progress where
  graph : Graph
  events : Array Event

namespace Progress

def start : Progress where
  graph := Graph.empty
  events := #[]

def log (s : Progress) (event : Event) : Progress :=
  { s with events := s.events.push event }

def link (s : Progress) (node target : Path) (name : Name) : Progress :=
  match s.graph.link? node target with
  | some graph => { graph, events := s.events.push (.linked node target name) }
  | none => s

@[simp] theorem graph_log (s : Progress) (event : Event) : (s.log event).graph = s.graph := rfl

@[simp] theorem graph_link (s : Progress) (node target : Path) (name : Name) :
    (s.link node target name).graph = s.graph.link node target := by
  unfold link Graph.link
  split <;> simp_all

def attempts (s : Progress) : List Path :=
  s.events.toList.filterMap Event.attempted?

end Progress

structure Pending where
  node : Path
  name : Name

def openSource (loader : Loader) (s : Progress) (p : Path) : Progress × List Pending :=
  match loader.canonical p with
  | .error fault => (s.log (.missed p fault), [])
  | .ok node =>
    if s.graph.contains node then (s.log (.revisited node), [])
    else
      match loader.text node with
      | .error fault => (s.log (.unread node fault), [])
      | .ok source =>
        ({ graph := s.graph.mark node, events := s.events.push (.visited node) },
          (References.ofSource source).names.map (Pending.mk node))

def isUnmarked (loader : Loader) (g : Graph) (file : Path) : Bool :=
  match loader.canonical file with
  | .error _ => false
  | .ok node => !g.contains node

def unmarkedCount (candidates : CandidateSet) (loader : Loader) (g : Graph) : Nat :=
  candidates.files.countP (isUnmarked loader g)

@[simp] theorem unmarkedCount_link (candidates : CandidateSet) (loader : Loader) (g : Graph)
    (source target : Path) :
    unmarkedCount candidates loader (g.link source target) = unmarkedCount candidates loader g := by
  unfold unmarkedCount
  congr 1
  funext file
  unfold isUnmarked
  split <;> simp

theorem openSource_progress (candidates : CandidateSet) (loader : Loader) (s : Progress) {p : Path}
    (hp : p ∈ candidates.files) :
    unmarkedCount candidates loader (openSource loader s p).1.graph
        < unmarkedCount candidates loader s.graph
      ∨ (openSource loader s p).1.graph = s.graph ∧ (openSource loader s p).2 = [] := by
  unfold openSource
  split
  next => exact .inr ⟨rfl, rfl⟩
  next node hnode =>
    split
    next => exact .inr ⟨rfl, rfl⟩
    next hfresh =>
      split
      next => exact .inr ⟨rfl, rfl⟩
      next =>
        refine .inl (countP_lt_countP (fun file _ h => ?_) hp ?_ ?_)
        · unfold isUnmarked at h ⊢
          split at h <;> simp_all
        · simp [isUnmarked, hnode, hfresh]
        · simp [isUnmarked, hnode]

/--
Follow names until none is left. The names of a source that is marked on the way are followed before
those that were left over, so that sources are visited depth first.
-/
def follow (candidates : CandidateSet) (loader : Loader) (s : Progress) : List Pending → Progress
  | [] => s
  | ⟨node, name⟩ :: pending =>
    match h : candidates.resolve? name with
    | none => follow candidates loader (s.log (.unresolved name node)) pending
    | some target =>
      have : target ∈ candidates.files := CandidateSet.mem_of_resolve? h
      let visit := openSource loader (s.link node target name) target
      follow candidates loader visit.1 (visit.2 ++ pending)
termination_by pending => (unmarkedCount candidates loader s.graph, pending.length)
decreasing_by
  · exact Prod.Lex.right _ (by simp)
  · have hvisit := openSource_progress candidates loader (s.link node target name) this
    rw [Progress.graph_link, unmarkedCount_link] at hvisit
    rcases hvisit with hlt | ⟨hgraph, hnone⟩
    · exact Prod.Lex.left _ _ hlt
    · simp only [hgraph, hnone, unmarkedCount_link]
      exact Prod.Lex.right _ (by simp)

def visit (candidates : CandidateSet) (loader : Loader) (s : Progress) (p : Path) : Progress :=
  let opened := openSource loader s p
  follow candidates loader opened.1 opened.2

/--
Visit an entry. The path under which it is shown is its canonical one, or its absolute one if it has
no canonical path.
-/
def addEntry (candidates : CandidateSet) (loader : Loader) (s : Progress) (entry : Path) :
    Path × Progress :=
  match loader.canonical entry with
  | .ok root => (root, visit candidates loader s root)
  | .error fault =>
    let root := (entry.absolute? loader.workingDirectory).getD entry
    (root, visit candidates loader (s.log (.entryMissed entry fault)) root)

def addEntries (candidates : CandidateSet) (loader : Loader) (s : Progress) :
    (entries : List Path) → List Path × Progress
  | [] => ([], s)
  | entry :: entries =>
    let (root, s) := addEntry candidates loader s entry
    let (roots, s) := addEntries candidates loader s entries
    (root :: roots, s)

end Build

end ComponentTree
