import ComponentTree.Proofs.Toml.Values

/-!
This module contains documents of assignments, one on each line. Such a document describes the table
in which every key has what its line gives it, in the order of the lines.
-/

namespace ComponentTree.Toml

structure Entry where
  name : Text
  datum : Datum

def IsBareKey (name : Text) : Prop :=
  name ≠ [] ∧ ∀ c ∈ name, isBareKeyChar c = true

inductive WritesLine (entry : Entry) : Text → Prop
  | assigned {written : Text} (hkey : IsBareKey entry.name) (h : WritesDatum entry.datum written) :
      WritesLine entry (entry.name ++ ' ' :: '=' :: ' ' :: written)

def Entry.IsBoundBy (entry : Entry) (member : Key × Value) : Prop :=
  member.1.name = entry.name ∧ member.2.Holds entry.datum

variable {name text rest line : Text} {entry : Entry}

/-! ### Keys -/

theorem IsBareKey.head (h : IsBareKey name) :
    ∃ c front, name = c :: front ∧ isBareKeyChar c = true := by
  cases name with
  | nil => exact absurd rfl h.1
  | cons c front => exact ⟨c, front, rfl, h.2 c List.mem_cons_self⟩

theorem key_append (h : IsBareKey name) (rest : Text) :
    key (name ++ ' ' :: rest)
      = (⟨.bare, name, true, .between (name ++ ' ' :: rest) (' ' :: rest)⟩, ' ' :: rest) := by
  have hword := isWord_of_forall_isBareKeyChar h.2
  have hpass : ∀ c ∈ name, (!endsBareKey c) = true := by
    intro c hc
    rw [endsBareKey, (hword c hc).1, Bool.false_or, Bool.not_eq_true', decide_eq_false_iff_not]
    exact (hword c hc).2.2.2
  have hdrop : (' ' :: rest).dropWhile (!endsBareKey ·) = ' ' :: rest := rfl
  have htake : (' ' :: rest).takeWhile (!endsBareKey ·) = [] := rfl
  rw [key, quoted?_append_eq_none hword h.1]
  dsimp only
  rw [List.dropWhile_append_of_pos hpass, List.takeWhile_append_of_pos hpass, hdrop, htake,
    List.append_nil]

theorem keys_append (h : IsBareKey name) (rest : Text) :
    ∃ span, keys (name ++ ' ' :: '=' :: rest)
      = ([⟨.bare, name, true, span⟩], '=' :: rest) := by
  refine ⟨.between (name ++ ' ' :: '=' :: rest) (' ' :: '=' :: rest), ?_⟩
  rw [keys, keyPath, key_append h]
  rfl

theorem refusesKey_append (h : IsBareKey name) (rest : Text) :
    refusesKey (name ++ rest) = false := by
  rcases h.head with ⟨c, front, rfl, hc⟩
  have hends := (isWord_of_forall_isBareKeyChar h.2 c List.mem_cons_self).1
  have hmarks : ",[]".toList.contains c = false := contains_eq_false_of_endsBare hends (by decide)
  simp only [endsBare, Bool.or_eq_false_iff] at hends
  simp only [refusesKey, List.cons_append, List.head?_cons, Option.any_some, hmarks, hends.1.1.2,
    hends.1.2, Bool.or_false]

/-! ### Lines -/

theorem assignment?_of_keys {path : List Lexeme} {value : RawValue} {after : Text}
    (hrefuses : refusesKey text = false) (hkeys : keys text = (path, '=' :: rest))
    (hrest : (skipInlineBlanks rest).head?.all ("#\r\n".toList.contains ·) = false)
    (hvalue : value? maxDepth (skipInlineBlanks rest) = some (value, after)) :
    assignment? text = some (.assignment path value, after) := by
  have hmatch : assignment? text
      = if (skipInlineBlanks rest).head?.all ("#\r\n".toList.contains ·) then
          some (.assignment path (missing (skipInlineBlanks rest)), skipInlineBlanks rest)
        else
          (value? maxDepth (skipInlineBlanks rest)).map
            fun read => (.assignment path read.1, read.2) := by
    rw [assignment?, hrefuses, if_neg Bool.false_ne_true, hkeys]
    rfl
  rw [hmatch, hrest, if_neg Bool.false_ne_true, hvalue]
  rfl

theorem assignment?_append (hkey : IsBareKey name) {datum : Datum} {written : Text}
    (h : WritesDatum datum written) (rest : Text) :
    ∃ span raw value,
      assignment? (name ++ ' ' :: '=' :: ' ' :: (written ++ '\n' :: rest))
        = some (.assignment [⟨.bare, name, true, span⟩] raw, '\n' :: rest) ∧
      Value.ofRaw raw = .ok value ∧ value.Holds datum := by
  rcases exists_value h 79 rest with ⟨raw, value, hread, hvalue, hholds⟩
  rcases keys_append hkey (' ' :: (written ++ '\n' :: rest)) with ⟨span, hkeys⟩
  refine ⟨span, raw, value, ?_, hvalue, hholds⟩
  rcases h.head with ⟨c, front, rfl, hblank, hend⟩
  have hskip : skipInlineBlanks (' ' :: (c :: front ++ '\n' :: rest))
      = c :: front ++ '\n' :: rest := by
    rw [skipInlineBlanks, List.dropWhile_cons_of_pos rfl]
    exact List.dropWhile_cons_of_neg (by simp [hblank])
  apply assignment?_of_keys (refusesKey_append hkey _) hkeys
  · rw [hskip]
    exact hend
  · rw [hskip]
    exact hread

theorem statement?_of_assignment? {statement : Statement} {c : Char} (hc : c ≠ '[')
    (h : assignment? (c :: text) = some (statement, '\n' :: rest)) :
    statement? (c :: text) = some (statement, rest) := by
  unfold statement?
  split
  next heq => exact absurd (List.cons.inj heq).1 hc
  next heq => exact absurd (List.cons.inj heq).1 hc
  next =>
    rw [h]
    rfl

theorem exists_statement (h : WritesLine entry line) (rest : Text) :
    ∃ span raw value, statement? (line ++ '\n' :: rest)
        = some (.assignment [⟨.bare, entry.name, true, span⟩] raw, rest) ∧
      Value.ofRaw raw = .ok value ∧ value.Holds entry.datum := by
  rcases h with ⟨hkey, h⟩
  rcases assignment?_append hkey h rest with ⟨span, raw, value, hassignment, hvalue, hholds⟩
  refine ⟨span, raw, value, ?_, hvalue, hholds⟩
  rcases hkey.head with ⟨c, front, hname, hc⟩
  have hbracket : c ≠ '[' := by
    rintro rfl
    cases hc
  rw [hname] at hassignment ⊢
  rw [List.append_assoc]
  exact statement?_of_assignment? hbracket hassignment

/-! ### Documents -/

def Entry.IsAssignedBy (entry : Entry) (a : RawAssignment) : Prop :=
  ∃ span value, a.path = [⟨.bare, entry.name, true, span⟩] ∧ Value.ofRaw a.value = .ok value ∧
    value.Holds entry.datum

theorem WritesLine.head (h : WritesLine entry line) :
    ∃ c front, line = c :: front ∧ isBareKeyChar c = true := by
  rcases h with ⟨hkey, _⟩
  rcases hkey.head with ⟨c, front, hname, hc⟩
  rw [hname]
  exact ⟨c, _, rfl, hc⟩

theorem skipFiller?_line (h : WritesLine entry line) (rest : Text) :
    skipFiller? false (line ++ rest) = some (line ++ rest) := by
  rcases h.head with ⟨c, front, rfl, hc⟩
  have hhash : c ≠ '#' := by
    rintro rfl
    cases hc
  have hblank : isInlineBlank c = false := by
    rw [isInlineBlank, Bool.or_eq_false_iff, decide_eq_false_iff_not, decide_eq_false_iff_not]
    constructor
    all_goals
      rintro rfl
      cases hc
  rw [List.cons_append, skipFiller?]
  · simp [hhash, hblank]
  · rintro rfl
    cases hc
  · rintro _ rfl
    cases hc

theorem statements?_unlines {entries : List Entry} {lines : List Text}
    (h : List.Forall₂ WritesLine entries lines) {fuel : Nat} (hfuel : lines.length < fuel) :
    ∃ assignments : List RawAssignment,
      statements? fuel (Text.unlines lines)
        = some (assignments.map fun a => .assignment a.path a.value) ∧
      List.Forall₂ Entry.IsAssignedBy entries assignments := by
  induction h generalizing fuel with
  | nil =>
    obtain ⟨fuel, rfl⟩ : ∃ k, fuel = k + 1 := ⟨fuel - 1, by simp at hfuel; omega⟩
    exact ⟨[], rfl, .nil⟩
  | @cons entry line entries lines hline h ih =>
    obtain ⟨fuel, rfl⟩ : ∃ k, fuel = k + 1 := ⟨fuel - 1, by omega⟩
    have hfuel' : lines.length < fuel := by
      rw [List.length_cons] at hfuel
      omega
    rcases exists_statement hline (Text.unlines lines) with
      ⟨span, raw, value, hstatement, hvalue, hholds⟩
    rcases ih hfuel' with ⟨assignments, hassignments, hall⟩
    refine ⟨⟨_, raw⟩ :: assignments, ?_, .cons ⟨span, value, rfl, hvalue, hholds⟩ hall⟩
    rw [Text.unlines_cons, statements?, skipFiller?_line hline, Option.bind_eq_bind,
      Option.bind_some]
    split
    next heq => simp at heq
    next =>
      rw [hstatement, Option.bind_eq_bind, Option.bind_some]
      dsimp only
      rw [hassignments]
      rfl

theorem length_le_length_unlines (lines : List Text) :
    lines.length ≤ (Text.unlines lines).length := by
  induction lines with
  | nil => exact Nat.le_refl _
  | cons line lines ih =>
    rw [Text.unlines_cons, List.length_append, List.length_cons, List.length_cons]
    omega

theorem ofDocument?_unlines {entries : List Entry} {lines : List Text}
    (h : List.Forall₂ WritesLine entries lines) :
    ∃ assignments : List RawAssignment,
      Statement.ofDocument? (Text.unlines lines)
        = some (assignments.map fun a => .assignment a.path a.value) ∧
      List.Forall₂ Entry.IsAssignedBy entries assignments := by
  have hmark : ∀ text, Text.unlines lines ≠ '\uFEFF' :: text := by
    intro text heq
    cases h with
    | nil => cases heq
    | cons hline =>
      rcases hline.head with ⟨c, front, rfl, hc⟩
      rw [Text.unlines_cons] at heq
      cases heq
      cases hc
  have hfuel : lines.length < (Text.unlines lines).length + 1 :=
    Nat.lt_succ_of_le (length_le_length_unlines lines)
  rcases statements?_unlines h hfuel with ⟨assignments, hassignments, hall⟩
  refine ⟨assignments, ?_, hall⟩
  unfold Statement.ofDocument?
  split
  next heq => exact absurd heq (hmark _)
  next => exact hassignments

theorem ofStatements_map_assignment (assignments : List RawAssignment) :
    Section.ofStatements (assignments.map fun a => .assignment a.path a.value)
      = (assignments, []) := by
  induction assignments with
  | nil => rfl
  | cons a assignments ih =>
    rw [List.map_cons, Section.ofStatements, ih]

theorem ofLexemes_singleton (h : IsBareKey name) (span : Span) :
    KeyPath.ofLexemes [⟨.bare, name, true, span⟩] = .ok ⟨[], ⟨name, span⟩⟩ := by
  have hname : Lexeme.keyText? ⟨.bare, name, true, span⟩ = some name := by
    rw [Lexeme.keyText?]
    exact if_pos ⟨h.1, List.all_eq_true.2 h.2⟩
  rw [KeyPath.ofLexemes, List.mapM_cons, hname]
  rfl

theorem assign_of_not_mem {t : Table} (key : Key) (horigin : t.origin = .header)
    (h : ∀ member ∈ t.members, member.1.name ≠ key.name) (value : Value) :
    t.assign ⟨[], key⟩ value = .ok (t.insert key value) := by
  have hfind : t.find? key.name = none := by
    rw [Table.find?, Option.map_eq_none_iff, List.find?_eq_none]
    intro member hmember
    simpa using h member hmember
  rw [Table.assign, Table.descend, hfind, horigin]
  rfl

theorem fill_of_isAssignedBy {entries : List Entry} {assignments : List RawAssignment}
    (h : List.Forall₂ Entry.IsAssignedBy entries assignments)
    (hkeys : ∀ entry ∈ entries, IsBareKey entry.name) (hnodup : (entries.map Entry.name).Nodup)
    {t : Table} (horigin : t.origin = .header)
    (hnew : ∀ member ∈ t.members, member.1.name ∉ entries.map Entry.name) :
    ∃ members, Table.fill assignments t = .ok { t with members := t.members ++ members } ∧
      List.Forall₂ Entry.IsBoundBy entries members := by
  -- The table grows with each entry, and stays one in which none of the keys to come is present.
  induction h generalizing t with
  | nil => exact ⟨[], by rw [List.append_nil]; rfl, .nil⟩
  | @cons entry a entries assignments ha _ ih =>
    rcases ha with ⟨span, value, hpath, hvalue, hholds⟩
    rw [List.forall_mem_cons] at hkeys
    rw [List.map_cons, List.nodup_cons] at hnodup
    have hfresh : ∀ member ∈ t.members, member.1.name ≠ entry.name := by
      intro member hmember heq
      exact hnew member hmember (heq ▸ List.mem_cons_self)
    have hassign := assign_of_not_mem ⟨entry.name, span⟩ horigin hfresh value
    have hnew' : ∀ member ∈ (t.insert ⟨entry.name, span⟩ value).members,
        member.1.name ∉ entries.map Entry.name := by
      rw [Table.insert, List.forall_mem_append, List.forall_mem_singleton]
      exact ⟨fun member hmember hmem => hnew member hmember (List.mem_cons_of_mem _ hmem), hnodup.1⟩
    have horigin' : (t.insert ⟨entry.name, span⟩ value).origin = .header := horigin
    rcases ih hkeys.2 hnodup.2 horigin' hnew' with ⟨members, hfill, hall⟩
    refine ⟨(⟨entry.name, span⟩, value) :: members, ?_, .cons ⟨rfl, hholds⟩ hall⟩
    rw [Table.fill] at hfill ⊢
    rw [List.foldlM_cons, hpath, ofLexemes_singleton hkeys.1, hvalue]
    change (t.assign ⟨[], ⟨entry.name, span⟩⟩ value).bind _ = _
    rw [hassign, Except.bind, hfill, Table.insert]
    simp only [List.append_assoc, List.singleton_append]

theorem ofDocument_unlines {entries : List Entry} {lines : List Text}
    (h : List.Forall₂ WritesLine entries lines) (hnodup : (entries.map Entry.name).Nodup) :
    ∃ members, Table.ofDocument (Text.unlines lines) = .ok ⟨.header, members⟩ ∧
      List.Forall₂ Entry.IsBoundBy entries members := by
  have hkeys : ∀ entry ∈ entries, IsBareKey entry.name := by
    clear hnodup
    induction h with
    | nil => simp
    | cons hline _ ih =>
      rcases hline with ⟨hkey, _⟩
      rw [List.forall_mem_cons]
      exact ⟨hkey, ih⟩
  rcases ofDocument?_unlines h with ⟨assignments, hassignments, hall⟩
  have hempty : ∀ member ∈ (Table.empty .header).members,
      member.1.name ∉ entries.map Entry.name := by simp [Table.empty]
  rcases fill_of_isAssignedBy hall hkeys hnodup rfl hempty with ⟨members, hfill, hbound⟩
  refine ⟨members, ?_, hbound⟩
  rw [Table.ofDocument, hassignments]
  dsimp only
  rw [ofStatements_map_assignment]
  dsimp only
  rw [hfill]
  rfl

end ComponentTree.Toml
