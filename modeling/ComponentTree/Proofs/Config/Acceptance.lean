import Mathlib.Data.List.Forall2
import Mathlib.Data.List.Nodup
import ComponentTree.Proofs.Config.Schema
import ComponentTree.Proofs.Toml.Keys

/-!
This module contains which documents are configurations: the ones whose table has only keys that a
configuration has, each with a value that it takes. If something is objected to several members of
the table, what is told is about the one whose key is the first in the order of bytes, so that it
does not depend on the order in which the keys stand.
-/

namespace ComponentTree

namespace Toml

mutual

def Value.unplaced : Value → Value
  | .scalar _ s => .scalar ⟨0, 0⟩ s
  | .array _ _ items => .array ⟨0, 0⟩ false (unplacedItems items)
  | .table _ _ members => .table ⟨0, 0⟩ .header (unplacedMembers members)

def unplacedItems : List Value → List Value
  | [] => []
  | item :: items => item.unplaced :: unplacedItems items

def unplacedMembers : List (Key × Value) → List (Key × Value)
  | [] => []
  | (key, value) :: members => (⟨key.name, ⟨0, 0⟩⟩, value.unplaced) :: unplacedMembers members

end

def unplacedMember (member : Key × Value) : Key × Value :=
  (⟨member.1.name, ⟨0, 0⟩⟩, member.2.unplaced)

end Toml

namespace Config

open Toml (Key Scalar Span Table Value unplacedMember unplacedItems)

def nameBytes (member : Key × Value) : Bytes :=
  Text.Utf8.encode member.1.name

def ordered (members : List (Key × Value)) : List (Key × Value) :=
  members.mergeSort fun a b => nameBytes a ≤ nameBytes b

def setAll (config : Config) (members : List (Key × Value)) : Read Config :=
  members.foldlM (fun config (key, value) => config.set key value) config

/-- What is objected to the member whose key is the first of those that something is objected to. -/
def IsFirstObjection (members : List (Key × Value)) (objection : Objection) : Prop :=
  ∃ member ∈ members, Offends member.1 member.2 objection ∧
    ∀ other ∈ members, ¬Suits other.1.name other.2 → nameBytes member ≤ nameBytes other

variable {t t' : Table} {members : List (Key × Value)} {objection : Objection}

theorem ofTable_eq_setAll (t : Table) :
    ofTable t = ({} : Config).setAll (ordered t.members) := rfl

theorem setAll_cons (config : Config) (member : Key × Value) (members : List (Key × Value)) :
    config.setAll (member :: members)
      = (config.set member.1 member.2 >>= fun config => config.setAll members) :=
  List.foldlM_cons

/-! ### The order of members -/

theorem perm_ordered (members : List (Key × Value)) : (ordered members).Perm members :=
  List.mergeSort_perm _ _

theorem nodup_nameBytes (ht : t.HasDistinctKeys) : (t.members.map nameBytes).Nodup := by
  have := List.Nodup.map (fun _ _ => Text.Utf8.encode_injective) ht
  rwa [List.map_map] at this

theorem pairwise_ordered (ht : t.HasDistinctKeys) :
    (ordered t.members).Pairwise fun a b => nameBytes a < nameBytes b :=
  pairwise_mergeSort_of_nodup (nodup_nameBytes ht)

/-! ### Which tables are configurations -/

theorem exists_setAll_eq_ok (h : ∀ member ∈ members, Suits member.1.name member.2)
    (config : Config) : ∃ config', config.setAll members = .ok config' := by
  induction members generalizing config with
  | nil => exact ⟨config, rfl⟩
  | cons member members ih =>
    rw [List.forall_mem_cons] at h
    rcases exists_set_eq_ok h.1 config with ⟨next, hnext⟩
    rw [setAll_cons, bind_of_eq_ok hnext]
    exact ih h.2 next

theorem setAll_of_offends {before after : List (Key × Value)} {member : Key × Value}
    (hbefore : ∀ b ∈ before, Suits b.1.name b.2) (h : Offends member.1 member.2 objection)
    (config : Config) : config.setAll (before ++ member :: after) = .error objection := by
  induction before generalizing config with
  | nil => rw [List.nil_append, setAll_cons, bind_of_eq_error (set_of_offends h config)]
  | cons first before ih =>
    rw [List.forall_mem_cons] at hbefore
    rcases exists_set_eq_ok hbefore.1 config with ⟨next, hnext⟩
    rw [List.cons_append, setAll_cons, bind_of_eq_ok hnext]
    exact ih hbefore.2 next

theorem Offends.not_suits {member : Key × Value} (h : Offends member.1 member.2 objection) :
    ¬Suits member.1.name member.2 := by
  intro hsuits
  rcases exists_set_eq_ok hsuits {} with ⟨config, hconfig⟩
  rw [set_of_offends h] at hconfig
  cases hconfig

theorem IsFirstObjection.unique {objection' : Objection} (ht : t.HasDistinctKeys)
    (h : IsFirstObjection t.members objection) (h' : IsFirstObjection t.members objection') :
    objection = objection' := by
  rcases h with ⟨member, hmember, hoffends, hfirst⟩
  rcases h' with ⟨member', hmember', hoffends', hfirst'⟩
  have hname : nameBytes member = nameBytes member' :=
    List.le_antisymm (hfirst _ hmember' hoffends'.not_suits) (hfirst' _ hmember hoffends.not_suits)
  obtain rfl := List.inj_on_of_nodup_map (nodup_nameBytes ht) hmember hmember' hname
  exact Except.error.inj ((set_of_offends hoffends {}).symm.trans (set_of_offends hoffends' {}))

section

variable (ht : t.HasDistinctKeys) (htable : ∀ member ∈ t.members,
  member.1.name = "output".toList → ∀ span origin members, member.2 ≠ .table span origin members)

include ht htable

theorem exists_ofTable_eq_error (h : ¬∀ member ∈ t.members, Suits member.1.name member.2) :
    ∃ objection, ofTable t = .error objection ∧ IsFirstObjection t.members objection := by
  have hmem (member : Key × Value) : member ∈ ordered t.members ↔ member ∈ t.members :=
    (perm_ordered t.members).mem_iff
  have hordered : ¬∀ member ∈ ordered t.members, Suits member.1.name member.2 :=
    fun hall => h fun member hmember => hall member ((hmem member).2 hmember)
  rcases exists_eq_append_cons_of_not_forall hordered with ⟨before, member, after, heq, hbefore, hm⟩
  have hmember : member ∈ t.members := (hmem member).1 (heq ▸ by simp)
  rcases exists_offends hm (htable member hmember) with ⟨objection, hoffends⟩
  refine ⟨objection, ?_, member, hmember, hoffends, ?_⟩
  · rw [ofTable_eq_setAll, heq]
    exact setAll_of_offends hbefore hoffends {}
  · intro other hother hsuits
    have hpairwise := pairwise_ordered ht
    rw [← hmem, heq, List.mem_append, List.mem_cons] at hother
    rw [heq, List.pairwise_append, List.pairwise_cons] at hpairwise
    rcases hother with hother | rfl | hother
    · exact absurd (hbefore other hother) hsuits
    · exact List.le_refl _
    · exact List.le_of_lt (hpairwise.2.1.1 other hother)

theorem exists_ofTable_eq_ok_iff :
    (∃ config, ofTable t = .ok config) ↔ ∀ member ∈ t.members, Suits member.1.name member.2 := by
  constructor
  · rintro ⟨config, hconfig⟩
    by_contra h
    rcases exists_ofTable_eq_error ht htable h with ⟨objection, herror, -⟩
    rw [hconfig] at herror
    cases herror
  · intro h
    apply exists_setAll_eq_ok
    intro member hmember
    exact h member ((perm_ordered t.members).mem_iff.1 hmember)

theorem ofTable_eq_error_iff :
    ofTable t = .error objection ↔ IsFirstObjection t.members objection := by
  have hfirst (h : ¬∀ member ∈ t.members, Suits member.1.name member.2) :=
    exists_ofTable_eq_error ht htable h
  constructor
  · intro herror
    have h : ¬∀ member ∈ t.members, Suits member.1.name member.2 := by
      rw [← exists_ofTable_eq_ok_iff ht htable]
      rintro ⟨config, hconfig⟩
      rw [hconfig] at herror
      cases herror
    rcases hfirst h with ⟨objection', herror', hobjection⟩
    cases herror.symm.trans herror'
    exact hobjection
  · intro hobjection
    have h : ¬∀ member ∈ t.members, Suits member.1.name member.2 := by
      rcases hobjection with ⟨member, hmember, hoffends, -⟩
      exact fun hall => hoffends.not_suits (hall member hmember)
    rcases hfirst h with ⟨objection', herror', hobjection'⟩
    rw [herror', hobjection.unique ht hobjection']

end

/-! ### Places do not count -/

def AgreeOn {α : Type} (read other : Read α) : Prop :=
  read.mapError Objection.mismatch = other.mapError Objection.mismatch

theorem AgreeOn.bind {α β : Type} {read other : Read α} {next next' : α → Read β}
    (h : AgreeOn read other) (hnext : ∀ a, AgreeOn (next a) (next' a)) :
    AgreeOn (read >>= next) (other >>= next') := by
  cases read with
  | error objection =>
    cases other with
    | error objection' => exact congrArg Except.error (Except.error.inj h)
    | ok a => cases h
  | ok a =>
    cases other with
    | error objection' => cases h
    | ok a' =>
      cases h
      exact hnext a

theorem ofValue_unplaced (wanted : Wanted) (value : Value) :
    Mismatch.ofValue wanted value.unplaced = Mismatch.ofValue wanted value := by
  cases value with
  | scalar span s => cases s <;> rfl
  | array span ofHeaders items => rfl
  | table span origin members => rfl

theorem agreeOn_refuse {α : Type} (value : Value) (wanted : Wanted) :
    AgreeOn (refuse value wanted : Read α) (refuse value.unplaced wanted) :=
  congrArg Except.error (ofValue_unplaced wanted value).symm

theorem agreeOn_readText (wanted : Wanted) (value : Value) :
    AgreeOn (readText wanted value) (readText wanted value.unplaced) := by
  cases value with
  | scalar span s =>
    cases s with
    | string text => rfl
    | integer n? => exact agreeOn_refuse _ _
    | float value => exact agreeOn_refuse _ _
    | boolean b => exact agreeOn_refuse _ _
    | moment => exact agreeOn_refuse _ _
  | array span ofHeaders items => exact agreeOn_refuse _ _
  | table span origin members => exact agreeOn_refuse _ _

theorem agreeOn_readItems (items : List Value) :
    AgreeOn (items.mapM (readText .text)) ((unplacedItems items).mapM (readText .text)) := by
  induction items with
  | nil => rfl
  | cons item items ih =>
    rw [unplacedItems, List.mapM_cons, List.mapM_cons]
    apply (agreeOn_readText .text item).bind
    intro text
    exact ih.bind fun texts => rfl

theorem agreeOn_readList (value : Value) : AgreeOn (readList value) (readList value.unplaced) := by
  cases value with
  | scalar span s => exact agreeOn_refuse (.scalar span s) _
  | array span ofHeaders items => exact agreeOn_readItems items
  | table span origin members => exact agreeOn_refuse (.table span origin members) _

theorem agreeOn_readFlag (value : Value) : AgreeOn (readFlag value) (readFlag value.unplaced) := by
  cases value with
  | scalar span s =>
    cases s with
    | boolean b => rfl
    | string text => exact agreeOn_refuse _ _
    | integer n? => exact agreeOn_refuse _ _
    | float value => exact agreeOn_refuse _ _
    | moment => exact agreeOn_refuse _ _
  | array span ofHeaders items => exact agreeOn_refuse _ _
  | table span origin members => exact agreeOn_refuse _ _

theorem agreeOn_readCount (value : Value) :
    AgreeOn (readCount value) (readCount value.unplaced) := by
  cases value with
  | scalar span s =>
    cases s with
    | integer n? =>
      cases n? with
      | none => exact agreeOn_refuse _ _
      | some n =>
        rw [Value.unplaced, readCount, readCount]
        split
        · rfl
        · split <;> rfl
    | string text => exact agreeOn_refuse _ _
    | float value => exact agreeOn_refuse _ _
    | boolean b => exact agreeOn_refuse _ _
    | moment => exact agreeOn_refuse _ _
  | array span ofHeaders items => exact agreeOn_refuse _ _
  | table span origin members => exact agreeOn_refuse _ _

theorem agreeOn_formatOfName (span span' : Span) (name : Text) :
    AgreeOn (formatOfName span name) (formatOfName span' name) := by
  rw [formatOfName, formatOfName]
  split <;> rfl

theorem agreeOn_readFormat (value : Value) :
    AgreeOn (readFormat value) (readFormat value.unplaced) := by
  cases value with
  | scalar span s =>
    cases s with
    | string name => exact agreeOn_formatOfName _ _ name
    | integer n? => rfl
    | float value => rfl
    | boolean b => rfl
    | moment => rfl
  | array span ofHeaders items => rfl
  | table span origin members =>
    match members with
    | [] => rfl
    | [(key, value)] =>
      apply (agreeOn_formatOfName _ _ key.name).bind
      intro format
      match value with
      | .scalar _ _ => rfl
      | .array _ _ [] => rfl
      | .array _ _ (_ :: _) => rfl
      | .table _ _ [] => rfl
      | .table _ _ (_ :: _) => rfl
    | _ :: _ :: _ => rfl

theorem agreeOn_set (config : Config) (member : Key × Value) :
    AgreeOn (config.set member.1 member.2)
      (config.set (unplacedMember member).1 (unplacedMember member).2) := by
  rcases member with ⟨⟨name, span⟩, value⟩
  dsimp only [unplacedMember]
  by_cases hkeys : ∀ key ∈ keys, name ≠ key.toList
  · rw [set_of_not_mem_keys hkeys, set_of_not_mem_keys hkeys]
    rfl
  · push Not at hkeys
    rcases hkeys with ⟨key, hkey, rfl⟩
    simp only [keys, List.mem_cons, List.not_mem_nil, or_false] at hkey
    rcases hkey with rfl | rfl | rfl | rfl | rfl | rfl
    · exact (agreeOn_readText .path value).bind fun _ => rfl
    · exact (agreeOn_readFormat value).bind fun _ => rfl
    · exact (agreeOn_readText .text value).bind fun _ => rfl
    · exact (agreeOn_readList value).bind fun _ => rfl
    · exact (agreeOn_readFlag value).bind fun _ => rfl
    · exact (agreeOn_readCount value).bind fun _ => rfl

theorem agreeOn_setAll (config : Config) (members : List (Key × Value)) :
    AgreeOn (config.setAll members) (config.setAll (members.map unplacedMember)) := by
  induction members generalizing config with
  | nil => rfl
  | cons member members ih =>
    rw [List.map_cons, setAll_cons, setAll_cons]
    exact (agreeOn_set config member).bind ih

theorem pairwise_map_unplacedMember (ht : t.HasDistinctKeys) :
    ((ordered t.members).map unplacedMember).Pairwise fun a b => nameBytes a < nameBytes b :=
  List.pairwise_map.2 (pairwise_ordered ht)

theorem agreeOn_ofTable_of_perm (ht : t.HasDistinctKeys) (ht' : t'.HasDistinctKeys)
    (h : (t'.members.map unplacedMember).Perm (t.members.map unplacedMember)) :
    AgreeOn (ofTable t') (ofTable t) := by
  have hperm : ((ordered t'.members).map unplacedMember).Perm
      ((ordered t.members).map unplacedMember) :=
    ((perm_ordered _).map _).trans (h.trans ((perm_ordered _).map _).symm)
  have heq : (ordered t'.members).map unplacedMember = (ordered t.members).map unplacedMember := by
    apply hperm.eq_of_pairwise _ (pairwise_map_unplacedMember ht') (pairwise_map_unplacedMember ht)
    intro a b _ _ hlt hlt'
    exact absurd hlt' (List.lt_asymm hlt)
  rw [AgreeOn, ofTable_eq_setAll, ofTable_eq_setAll, agreeOn_setAll, heq, ← agreeOn_setAll]

/-! ### Documents -/

theorem ofText_of_ofDocument {document : Text} (h : Table.ofDocument document = .ok t) :
    ofText document = (ofTable t).mapError .table := by
  rw [ofText, h]
  dsimp only
  cases ofTable t with
  | error objection => rfl
  | ok config => rfl

theorem AgreeOn.mapError_message {read other : Read Config} (h : AgreeOn read other) :
    (read.mapError Invalid.table).mapError Invalid.message
      = (other.mapError Invalid.table).mapError Invalid.message := by
  cases read with
  | error objection =>
    cases other with
    | error objection' => exact congrArg (Except.error ∘ Mismatch.message) (Except.error.inj h)
    | ok config => cases h
  | ok config =>
    cases other with
    | error objection' => cases h
    | ok config' =>
      cases h
      rfl

theorem exists_ofText_eq_ok_iff_and_error_iff {document : Text} {t : Table}
    (ht : Table.ofDocument document = .ok t)
    (houtput : ∀ member ∈ t.members, member.1.name = "output".toList →
      ∀ span origin members, member.2 ≠ .table span origin members) :
    ((∃ config, ofText document = .ok config) ↔
      ∀ member ∈ t.members, Suits member.1.name member.2) ∧
    (∀ invalid, ofText document = .error invalid ↔
      ∃ objection, IsFirstObjection t.members objection ∧ invalid = .table objection) ∧
    (∀ objection source, ∃ place, (Invalid.table objection).failure source document
      = .configInvalid (String.ofList source.display) (place ++ objection.mismatch.message)) ∧
    ∀ document' t', Table.ofDocument document' = .ok t' →
      (t'.members.map unplacedMember).Perm (t.members.map unplacedMember) →
      (ofText document').mapError Invalid.message = (ofText document).mapError Invalid.message := by
  have hkeys := Table.hasDistinctKeys_of_ofDocument ht
  refine ⟨?_, ?_, fun _ _ => ⟨_, rfl⟩, ?_⟩
  · rw [← exists_ofTable_eq_ok_iff hkeys houtput, ofText_of_ofDocument ht]
    cases ofTable t with
    | error objection => exact ⟨nofun, nofun⟩
    | ok config => exact ⟨fun _ => ⟨config, rfl⟩, fun _ => ⟨config, rfl⟩⟩
  · intro invalid
    simp only [← ofTable_eq_error_iff hkeys houtput, ofText_of_ofDocument ht]
    cases ofTable t with
    | error objection =>
      constructor
      · rintro ⟨⟩
        exact ⟨objection, rfl, rfl⟩
      · rintro ⟨_, ⟨⟩, rfl⟩
        rfl
    | ok config => exact ⟨nofun, nofun⟩
  · intro document' t' ht' hperm
    have hkeys' := Table.hasDistinctKeys_of_ofDocument ht'
    rw [ofText_of_ofDocument ht, ofText_of_ofDocument ht']
    exact (agreeOn_ofTable_of_perm hkeys hkeys' hperm).mapError_message

def countedEntry : Toml.Entry := ⟨"sorted".toList, .natural 1⟩

def toggledEntry : Toml.Entry := ⟨"depth".toList, .boolean true⟩

theorem writesLine_countedEntry : Toml.WritesLine countedEntry "sorted = 1".toList :=
  .assigned (isBareKey_key (.sorted true)) (.natural 1)

theorem writesLine_toggledEntry : Toml.WritesLine toggledEntry "depth = true".toList :=
  .assigned (isBareKey_key (.depth 0)) (.boolean true)

def countedMember (key value : Span) : Key × Value :=
  (⟨"sorted".toList, key⟩, .scalar value (.integer (some 1)))

def toggledMember (key value : Span) : Key × Value :=
  (⟨"depth".toList, key⟩, .scalar value (.boolean true))

theorem eq_of_isBoundBy_countedEntry {member : Key × Value} (h : countedEntry.IsBoundBy member) :
    ∃ key value, member = countedMember key value := by
  rcases member with ⟨⟨name, key⟩, value⟩
  rcases h with ⟨rfl, h⟩
  change value.Holds (.natural 1) at h
  cases h with
  | natural span => exact ⟨key, span, rfl⟩

theorem eq_of_isBoundBy_toggledEntry {member : Key × Value} (h : toggledEntry.IsBoundBy member) :
    ∃ key value, member = toggledMember key value := by
  rcases member with ⟨⟨name, key⟩, value⟩
  rcases h with ⟨rfl, h⟩
  change value.Holds (.boolean true) at h
  cases h with
  | boolean span => exact ⟨key, span, rfl⟩

theorem isFirstObjection_toggledMember (key value key' value' : Span) :
    IsFirstObjection [countedMember key value, toggledMember key' value']
      ⟨value', .wrongType (.boolean true) .count⟩ := by
  have hle : nameBytes (toggledMember key' value') ≤ nameBytes (countedMember key value) := by
    change Text.Utf8.encode "depth".toList ≤ Text.Utf8.encode "sorted".toList
    decide
  refine ⟨_, List.mem_cons_of_mem _ List.mem_cons_self, .wrongType rfl .depth ?_, ?_⟩
  · rintro ⟨_, _, ⟨⟩, _⟩
  · intro other hother _
    simp only [List.mem_cons, List.not_mem_nil, or_false] at hother
    rcases hother with rfl | rfl
    · exact hle
    · exact List.le_refl _

theorem exists_ofText_eq_ok_iff_and_error_iff_toggledEntry :
    let document := Text.unlines ["sorted = 1".toList, "depth = true".toList]
    let document' := Text.unlines ["depth = true".toList, "sorted = 1".toList]
    ∃ t t', Table.ofDocument document = .ok t ∧
      (∀ member ∈ t.members, member.1.name = "output".toList →
        ∀ span origin members, member.2 ≠ .table span origin members) ∧
      Table.ofDocument document' = .ok t' ∧
      (t'.members.map unplacedMember).Perm (t.members.map unplacedMember) ∧
      (ofText document).mapError Invalid.message
        = .error "invalid type: boolean \x60true\x60, expected usize" ∧
      (ofText document').mapError Invalid.message
        = .error "invalid type: boolean \x60true\x60, expected usize" := by
  intro document document'
  obtain ⟨members, ht, hbound⟩ := Toml.ofDocument_unlines
    (.cons writesLine_countedEntry (.cons writesLine_toggledEntry .nil)) (by decide)
  obtain ⟨members', ht', hbound'⟩ := Toml.ofDocument_unlines
    (.cons writesLine_toggledEntry (.cons writesLine_countedEntry .nil)) (by decide)
  -- Each table has the two members that its lines bind, at the places of its document.
  simp only [List.forall₂_cons_left_iff, List.forall₂_nil_left_iff] at hbound hbound'
  obtain ⟨counted, _, hcounted, ⟨toggled, _, htoggled, rfl, rfl⟩, rfl⟩ := hbound
  obtain ⟨toggled', _, htoggled', ⟨counted', _, hcounted', rfl, rfl⟩, rfl⟩ := hbound'
  obtain ⟨_, _, rfl⟩ := eq_of_isBoundBy_countedEntry hcounted
  obtain ⟨_, _, rfl⟩ := eq_of_isBoundBy_toggledEntry htoggled
  obtain ⟨_, _, rfl⟩ := eq_of_isBoundBy_countedEntry hcounted'
  obtain ⟨_, _, rfl⟩ := eq_of_isBoundBy_toggledEntry htoggled'
  rcases exists_ofText_eq_ok_iff_and_error_iff ht (by simp [countedMember, toggledMember])
    with ⟨-, herror, -, hordered⟩
  have hmessage : (ofText document).mapError Invalid.message
      = .error "invalid type: boolean \x60true\x60, expected usize" := by
    rw [(herror _).2 ⟨_, isFirstObjection_toggledMember _ _ _ _, rfl⟩]
    rfl
  refine ⟨_, _, ht, by simp [countedMember, toggledMember], ht', ?_, hmessage, ?_⟩
  · exact List.Perm.swap _ _ []
  · exact (hordered _ _ ht' (List.Perm.swap _ _ [])).trans hmessage

end Config

end ComponentTree
