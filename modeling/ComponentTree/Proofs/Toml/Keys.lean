import ComponentTree.Lists
import ComponentTree.Toml.Document

/-!
This module contains that the keys of the table that a document describes differ from each other,
however assignments and headers have added to it.
-/

namespace ComponentTree.Toml

def Table.HasDistinctKeys (t : Table) : Prop :=
  (t.members.map (·.1.name)).Nodup

/-! ### Steps that may fail -/

section Steps

variable {ε α β : Type}

theorem exists_of_bind_eq_ok {step : Except ε α} {next : α → Except ε β} {b : β}
    (h : step >>= next = .ok b) : ∃ a, step = .ok a ∧ next a = .ok b := by
  cases step with
  | error e => cases h
  | ok a => exact ⟨a, rfl, h⟩

theorem holds_of_foldlM_eq_ok {P : β → Prop} {step : β → α → Except ε β} {l : List α} {b b' : β}
    (hstep : ∀ b a b', P b → step b a = .ok b' → P b') (hb : P b)
    (h : l.foldlM step b = .ok b') : P b' := by
  induction l generalizing b with
  | nil =>
    cases h
    exact hb
  | cons a l ih =>
    rw [List.foldlM_cons] at h
    rcases exists_of_bind_eq_ok h with ⟨next, hnext, h⟩
    exact ih (hstep _ _ _ hb hnext) h

end Steps

namespace Table

variable {t t' : Table} {name : Text} {key : Key} {value : Value}

/-! ### Changes of a table -/

theorem not_mem_of_find?_eq_none (h : t.find? name = none) :
    name ∉ t.members.map (·.1.name) := by
  rw [find?, Option.map_eq_none_iff, List.find?_eq_none] at h
  rw [List.mem_map]
  rintro ⟨member, hmember, rfl⟩
  exact h member hmember (decide_eq_true rfl)

theorem HasDistinctKeys.insert (ht : t.HasDistinctKeys) (h : t.find? key.name = none)
    (value : Value) : (t.insert key value).HasDistinctKeys :=
  nodup_map_append_singleton ht (not_mem_of_find?_eq_none h)

theorem HasDistinctKeys.replace (ht : t.HasDistinctKeys) (name : Text) (value : Value) :
    (t.replace name value).HasDistinctKeys := by
  have hnames : (t.replace name value).members.map (·.1.name) = t.members.map (·.1.name) := by
    rw [Table.replace, List.map_map]
    apply List.map_congr_left
    intro member _
    dsimp only [Function.comp_apply]
    split <;> rfl
  rw [HasDistinctKeys, hnames]
  exact ht

theorem HasDistinctKeys.erase (ht : t.HasDistinctKeys) (name : Text) :
    (t.erase name).HasDistinctKeys := by
  have hsublist : (t.erase name).members.Sublist t.members := List.filter_sublist
  exact ht.sublist (hsublist.map _)

theorem find?_erase (t : Table) (name : Text) : (t.erase name).find? name = none := by
  rw [find?, Option.map_eq_none_iff, List.find?_eq_none]
  intro member hmember
  rw [erase, List.mem_filter] at hmember
  simpa using hmember.2

/-! ### Statements -/

theorem HasDistinctKeys.descend {use : PathUse} {change : Table → Except Flaw Table}
    {path : List Key} (ht : t.HasDistinctKeys)
    (hchange : ∀ t', t.HasDistinctKeys → change t = .ok t' → t'.HasDistinctKeys)
    (h : Table.descend use change path t = .ok t') : t'.HasDistinctKeys := by
  cases path with
  | nil => exact hchange _ ht h
  | cons key path =>
    -- Below the first key only its value is another one.
    rw [Table.descend] at h
    split at h
    next hfind =>
      rcases exists_of_bind_eq_ok h with ⟨inner, -, h⟩
      cases h
      exact ht.insert hfind _
    next =>
      split at h
      next => cases h
      next =>
        rcases exists_of_bind_eq_ok h with ⟨inner, -, h⟩
        cases h
        exact ht.replace _ _
    next =>
      split at h
      next =>
        rcases exists_of_bind_eq_ok h with ⟨inner, -, h⟩
        cases h
        exact ht.replace _ _
      next => cases h
    next => cases h

theorem HasDistinctKeys.assign {path : KeyPath} (ht : t.HasDistinctKeys)
    (h : t.assign path value = .ok t') : t'.HasDistinctKeys := by
  refine ht.descend ?_ h
  intro t' ht hset
  split at hset
  next hfree =>
    cases hset
    exact ht.insert (Option.isNone_iff_eq_none.1 hfree.2) _
  next => cases hset

theorem HasDistinctKeys.fill {assignments : List RawAssignment} (ht : t.HasDistinctKeys)
    (h : Table.fill assignments t = .ok t') : t'.HasDistinctKeys := by
  refine holds_of_foldlM_eq_ok ?_ ht h
  intro t a t' ht hassign
  rcases exists_of_bind_eq_ok hassign with ⟨path, -, hassign⟩
  rcases exists_of_bind_eq_ok hassign with ⟨value, -, hassign⟩
  exact ht.assign hassign

theorem HasDistinctKeys.openTable {span : Span} {path : KeyPath}
    {fill : Table → Except Flaw Table} (ht : t.HasDistinctKeys)
    (h : t.openTable span path fill = .ok t') : t'.HasDistinctKeys := by
  refine ht.descend ?_ h
  intro t' ht hset
  dsimp only at hset
  -- Whatever the members that are there already, they are put back under the key.
  split at hset
  all_goals rcases exists_of_bind_eq_ok hset with ⟨members, hmembers, hset⟩
  case h_3 => cases hmembers
  all_goals
    rcases exists_of_bind_eq_ok hset with ⟨body, -, hset⟩
    cases hset
    exact (ht.erase _).insert (find?_erase _ _) _

theorem HasDistinctKeys.openElement {span : Span} {path : KeyPath}
    {fill : Table → Except Flaw Table} (ht : t.HasDistinctKeys)
    (h : t.openElement span path fill = .ok t') : t'.HasDistinctKeys := by
  rcases exists_of_bind_eq_ok h with ⟨body, -, h⟩
  refine ht.descend ?_ h
  intro t' ht hpush
  split at hpush
  next hfind =>
    cases hpush
    exact ht.insert hfind _
  next =>
    cases hpush
    exact ht.replace _ _
  next => cases hpush

theorem HasDistinctKeys.addSection {s : Section} (ht : t.HasDistinctKeys)
    (h : t.addSection s = .ok t') : t'.HasDistinctKeys := by
  rcases exists_of_bind_eq_ok h with ⟨path, -, h⟩
  split at h
  · exact ht.openElement h
  · exact ht.openTable h

theorem hasDistinctKeys_of_ofDocument {document : Text} (h : ofDocument document = .ok t) :
    t.HasDistinctKeys := by
  have hempty : (empty .header).HasDistinctKeys := List.nodup_nil
  rw [ofDocument] at h
  split at h
  next => cases h
  next statements _ =>
    rcases exists_of_bind_eq_ok h with ⟨own, hown, h⟩
    exact holds_of_foldlM_eq_ok (fun _ _ _ => .addSection) (hempty.fill hown) h

end Table

end ComponentTree.Toml
