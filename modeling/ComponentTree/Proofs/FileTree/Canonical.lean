import ComponentTree.Proofs.FileTree.Reordered
import ComponentTree.Proofs.Path.Names

/-!
This module contains where paths lead in a tree of files whose names a path can hold. The location
that a way ends at is there and is no link, and the path of such a location leads back to it, so
that canonical paths are their own canonical paths.
-/

namespace ComponentTree

namespace FileTree

/-- Every entry can be looked up by its name: names differ, and none is too long or holds a NUL. -/
structure Sound (t : FileTree) : Prop where
  wellNamed : t.WellNamed
  fits : ∀ names entries, t.at? names = some (.directory entries) →
    ∀ name ∈ entries.map (·.1), name.length ≤ maxNameLength ∧ 0 ∉ name

namespace Sound

theorem of_not_isDirectory {t : FileTree} (h : t.isDirectory = false) : t.Sound := by
  constructor
  · exact wellNamed_of_not_isDirectory h
  · intro names entries hat
    rw [isDirectory_of_at? hat] at h
    cases h

theorem directory {entries : List (Bytes × FileTree)} (hnodup : (entries.map (·.1)).Nodup)
    (hnames : ∀ name ∈ entries.map (·.1),
      Path.IsName name ∧ name.length ≤ maxNameLength ∧ 0 ∉ name)
    (hentries : ∀ e ∈ entries, e.2.Sound) : (directory entries).Sound := by
  constructor
  · apply wellNamed_directory hnodup
    · intro name hname
      exact (hnames name hname).1
    · intro e he
      exact (hentries e he).wellNamed
  · apply forall_directories
    · intro name hname
      exact (hnames name hname).2
    · intro e he
      exact (hentries e he).fits

end Sound

def Holds (top : FileTree) (names : List Bytes) : Prop :=
  ∃ t, top.at? names = some t ∧ ∀ target, t ≠ .link target

variable {top : FileTree} {names here pieces location : List Bytes}

theorem holds_of_directory {entries : List (Bytes × FileTree)}
    (h : top.at? names = some (.directory entries)) : top.Holds names := by
  refine ⟨_, h, ?_⟩
  intro target
  simp

theorem exists_of_at?_append {above : List Bytes} {name : Bytes} {below : List Bytes}
    {t : FileTree} (h : top.at? (above ++ name :: below) = some t) :
    ∃ entries inner, top.at? above = some (.directory entries) ∧ (name, inner) ∈ entries
      ∧ (directory entries).child? name = some inner ∧ inner.at? below = some t := by
  rw [at?_append, Option.bind_eq_some_iff] at h
  rcases h with ⟨middle, hmiddle, hbelow⟩
  rw [at?, Option.bind_eq_some_iff] at hbelow
  rcases hbelow with ⟨inner, hchild, hinner⟩
  cases middle with
  | file _ => cases hchild
  | link _ => cases hchild
  | directory entries => exact ⟨entries, inner, hmiddle, mem_of_child? hchild, hchild, hinner⟩

theorem holds_dropLast {entries : List (Bytes × FileTree)}
    (h : top.at? names = some (.directory entries)) : top.Holds names.dropLast := by
  rcases List.eq_nil_or_concat names with rfl | ⟨above, name, rfl⟩
  · exact holds_of_directory h
  · rw [List.concat_eq_append] at h ⊢
    rcases exists_of_at?_append h with ⟨entries, _, habove, _⟩
    rw [List.dropLast_concat]
    exact holds_of_directory habove

theorem holds_of_locate {links : Nat} (h : top.locate links here pieces = .ok location)
    (hhere : pieces = [] → top.Holds here) : top.Holds location := by
  fun_induction locate top links here pieces with
  | case1 =>
    cases h
    exact hhere rfl
  | case5 _ here _ _ _ hdirectory _ ih =>
    apply ih h
    intro _
    exact holds_of_directory hdirectory
  | case6 _ here _ _ hdirectory _ ih =>
    apply ih h
    intro _
    exact holds_dropLast hdirectory
  | case10 here piece _ _ hdirectory _ _ _ target _ _ ih =>
    -- What a link leads to has a piece, so that a way does not end at the link.
    apply ih h
    intro hnil
    exact absurd (List.append_eq_nil_iff.1 hnil).1 target.pieces_ne_nil
  | case11 _ here piece _ _ hdirectory _ _ _ inner hnolink hchild ih =>
    apply ih h
    intro _
    refine ⟨inner, ?_, hnolink⟩
    rw [at?_append, hdirectory, Option.bind_some, at?, hchild]
    rfl
  | _ => cases h

theorem isDirectory_of_locate {links : Nat} (h : top.locate links here pieces = .ok location)
    (hpieces : pieces ≠ []) : top.isDirectory = true := by
  cases pieces with
  | nil => contradiction
  | cons piece pieces =>
    rw [locate] at h
    split at h
    next => cases h
    next => cases h
    next => cases h
    next entries hdirectory => exact isDirectory_of_at? hdirectory

theorem locate_slash (h : top.isDirectory = true) (links : Nat) (pieces : List Bytes) :
    top.locate links [] ([] :: pieces) = top.locate links [] pieces := by
  rw [locate, at?]
  cases top with
  | file _ => cases h
  | link _ => cases h
  | directory entries => simp [Path.isIdle]

theorem Sound.isName (h : top.Sound) (hnames : top.Holds names) :
    ∀ name ∈ names, Path.IsName name ∧ name.length ≤ maxNameLength ∧ 0 ∉ name := by
  rcases hnames with ⟨t, ht, _⟩
  intro name hname
  rcases List.append_of_mem hname with ⟨above, below, rfl⟩
  rcases exists_of_at?_append ht with ⟨entries, inner, habove, hmem, _⟩
  have hname := List.mem_map_of_mem (f := (·.1)) hmem
  exact ⟨(h.wellNamed above entries habove).2 name hname, h.fits above entries habove name hname⟩

theorem locate_names (h : top.Sound) (links : Nat) (hnames : top.Holds (here ++ names)) :
    top.locate links here names = .ok (here ++ names) := by
  induction names generalizing here with
  | nil => rw [locate, List.append_nil]
  | cons name names ih =>
    have hname := h.isName hnames name (by simp)
    rcases hnames with ⟨t, ht, hnolink⟩
    rcases exists_of_at?_append ht with ⟨entries, inner, hhere, _, hchild, hinner⟩
    -- Only the last name may name a link, since nothing lies below a link.
    have hinner : ∀ target, inner ≠ .link target := by
      rintro target rfl
      cases names with
      | nil =>
        cases hinner
        exact hnolink target rfl
      | cons _ _ => cases hinner
    rw [locate, hhere]
    simp only [hname.1.2.1, hname.1.2.2, Nat.not_lt.2 hname.2.1, ↓reduceIte, hchild,
      Bool.false_eq_true]
    rw [List.append_cons here name names] at ht ⊢
    have hrest := ih ⟨t, ht, hnolink⟩
    cases inner with
    | link target => exact absurd rfl (hinner target)
    | file _ => exact hrest
    | directory _ => exact hrest

end FileTree

namespace FileSystem

variable {fs : FileSystem} {p q : Path} {names : List Bytes}

theorem locate_ofNames (hsound : fs.top.Sound) (hdirectory : fs.top.isDirectory = true)
    (hnames : fs.top.Holds names) : fs.locate (.ofNames names) = .ok names := by
  have hname := hsound.isName hnames
  have hnul : (Path.ofNames names).bytes.contains 0 = false := by
    rw [← Bool.not_eq_true, List.contains_iff_mem]
    exact Path.nul_not_mem_ofNames fun name h => (hname name h).2.2
  rw [locate, FileTree.locatePath, hnul, if_neg Bool.false_ne_true, if_neg (by simp [Path.ofNames]),
    if_pos (Path.isAbsolute_ofNames names)]
  by_cases hne : names = []
  · subst hne
    have hpieces : (Path.ofNames []).pieces = [[], []] := by decide
    rw [hpieces, FileTree.locate_slash hdirectory, FileTree.locate_slash hdirectory,
      FileTree.locate]
  · rw [Path.pieces_ofNames (fun name h => (hname name h).1.1) hne,
      FileTree.locate_slash hdirectory]
    have hstart : fs.top.Holds ([] ++ names) := hnames
    exact FileTree.locate_names hsound _ hstart

theorem exists_of_canonical (h : fs.canonical p = .ok q) :
    ∃ names, fs.locate p = .ok names ∧ q = .ofNames names ∧ fs.top.Holds names
      ∧ fs.top.isDirectory = true := by
  rw [canonical] at h
  cases hlocate : fs.locate p with
  | error fault =>
    rw [hlocate] at h
    cases h
  | ok names =>
    rw [hlocate] at h
    cases h
    refine ⟨names, rfl, rfl, ?_⟩
    rw [locate, FileTree.locatePath] at hlocate
    split at hlocate
    next => cases hlocate
    next =>
      split at hlocate
      next => cases hlocate
      next =>
        have hpieces := p.pieces_ne_nil
        exact ⟨FileTree.holds_of_locate hlocate (absurd · hpieces),
          FileTree.isDirectory_of_locate hlocate hpieces⟩

theorem eq_of_canonical_of_same {p' q' : Path} (hsound : fs.top.Sound)
    (h : fs.canonical p = .ok q) (h' : fs.canonical p' = .ok q') (hsame : q.Same q') : q = q' := by
  rcases exists_of_canonical h with ⟨names, _, rfl, hnames, _⟩
  rcases exists_of_canonical h' with ⟨names', _, rfl, hnames', _⟩
  rw [Path.eq_of_same_ofNames (fun n hn => (hsound.isName hnames n hn).1)
    (fun n hn => (hsound.isName hnames' n hn).1) hsame]

theorem text_disk {bytes : Bytes} {text : Text} (hcontent : fs.content p = .ok bytes)
    (htext : Text.Utf8.decode? bytes = some text) : fs.disk.text p = .ok text := by
  have hread : fs.disk.content p = .ok bytes := hcontent
  rw [Disk.text, hread]
  dsimp only [bind, Except.bind]
  rw [htext]
  rfl

end FileSystem

end ComponentTree
