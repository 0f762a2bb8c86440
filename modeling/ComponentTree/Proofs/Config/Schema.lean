import Mathlib.Algebra.Group.Int.Defs
import Mathlib.Algebra.Group.Nat.Defs
import ComponentTree.Lists
import ComponentTree.Proofs.Config.Written

/-!
This module contains which value each key of a configuration takes, and what is objected to any
other key or value. A key that is set is accepted just where its value is one that it takes.
-/

namespace ComponentTree

section Width

variable {bits : Nat} {n : Int}

theorem fitsUnsigned_iff : fitsUnsigned bits n = true ↔ 0 ≤ n ∧ n < 2 ^ bits := by
  cases n with
  | ofNat n =>
    have hpow : ((2 ^ bits : Nat) : Int) = 2 ^ bits := by norm_cast
    have hfits : fitsUnsigned bits (.ofNat n) = true ↔ n < 2 ^ bits := decide_eq_true_iff
    rw [hfits, Int.ofNat_eq_natCast, ← hpow]
    omega
  | negSucc n =>
    have hfits : ¬fitsUnsigned bits (.negSucc n) = true := Bool.false_ne_true
    rw [iff_false_left hfits]
    omega

theorem fitsSigned_iff :
    fitsSigned bits n = true ↔ -2 ^ (bits - 1) ≤ n ∧ n < 2 ^ (bits - 1) := by
  have hpow : ((2 ^ (bits - 1) : Nat) : Int) = 2 ^ (bits - 1) := by norm_cast
  cases n with
  | ofNat n =>
    have hfits : fitsSigned bits (.ofNat n) = true ↔ n < 2 ^ (bits - 1) := decide_eq_true_iff
    rw [hfits, Int.ofNat_eq_natCast, ← hpow]
    omega
  | negSucc n =>
    have hfits : fitsSigned bits (.negSucc n) = true ↔ n < 2 ^ (bits - 1) := decide_eq_true_iff
    rw [hfits, ← hpow]
    omega

end Width

namespace Config

open Toml (Key Scalar Span Table Value)

/-! ### The schema -/

/-- Whether a key has the name and takes the value. An output that is given by a table is none. -/
inductive Suits : Text → Value → Prop
  | root {value : Value} {text : Text} (h : value.HoldsText text) : Suits "root".toList value
  | output {value : Value} {format : OutputFormat} (h : value.HoldsText format.name.toList) :
      Suits "output".toList value
  | extension {value : Value} {text : Text} (h : value.HoldsText text) :
      Suits "extension".toList value
  | exclude {span : Span} {ofHeaders : Bool} {items : List Value}
      (h : ∀ item ∈ items, ∃ text, item.HoldsText text) :
      Suits "exclude".toList (.array span ofHeaders items)
  | sorted {span : Span} {b : Bool} : Suits "sorted".toList (.scalar span (.boolean b))
  | depth {span : Span} {n : Nat} (h : n < 2 ^ 64) :
      Suits "depth".toList (.scalar span (.integer (some n)))

inductive Takes : String → Wanted → Prop
  | root : Takes "root" .path
  | extension : Takes "extension" .text
  | exclude : Takes "exclude" .list
  | sorted : Takes "sorted" .flag
  | depth : Takes "depth" .count

def Wanted.IsTypeOf (value : Value) : Wanted → Prop
  | path | text => ∃ text, value.HoldsText text
  | list => ∃ span ofHeaders items, value = .array span ofHeaders items
  | flag => ∃ span b, value = .scalar span (.boolean b)
  | count => ∃ span n, value = .scalar span (.integer (some n)) ∧ -2 ^ 63 ≤ n ∧ n < 2 ^ 64

inductive Offends : Key → Value → Objection → Prop
  | unknownKey {key : Key} (value : Value) (h : ∀ name ∈ keys, key.name ≠ name.toList) :
      Offends key value ⟨key.span, .unknownKey key.name⟩
  | wrongType {key : Key} {value : Value} {name : String} {wanted : Wanted}
      (hkey : key.name = name.toList) (htakes : Takes name wanted)
      (h : ¬wanted.IsTypeOf value) :
      Offends key value ⟨value.span, .ofValue wanted value⟩
  | item {key : Key} {span : Span} {ofHeaders : Bool} {before after : List Value} {item : Value}
      (hkey : key.name = "exclude".toList) (hbefore : ∀ i ∈ before, ∃ text, i.HoldsText text)
      (h : ∀ text, ¬item.HoldsText text) :
      Offends key (.array span ofHeaders (before ++ item :: after))
        ⟨item.span, .ofValue .text item⟩
  | negativeCount {key : Key} {span : Span} {n : Int} (hkey : key.name = "depth".toList)
      (hle : -2 ^ 63 ≤ n) (hlt : n < 0) :
      Offends key (.scalar span (.integer (some n))) ⟨span, .negativeCount n⟩
  | unknownFormat {key : Key} {span : Span} {name : Text} (hkey : key.name = "output".toList)
      (h : ∀ format : OutputFormat, name ≠ format.name.toList) :
      Offends key (.scalar span (.string name)) ⟨span, .unknownFormat name⟩
  | outputUnnamed {key : Key} {value : Value} (hkey : key.name = "output".toList)
      (htext : ∀ text, ¬value.HoldsText text)
      (htable : ∀ span origin members, value ≠ .table span origin members) :
      Offends key value ⟨value.span, .outputUnnamed⟩

variable {config : Config} {key : Key} {value : Value} {objection : Objection}

/-! ### What is objected to -/

theorem exists_offends_exclude (hkey : key.name = "exclude".toList)
    (h : ¬Suits "exclude".toList value) : ∃ objection, Offends key value objection := by
  by_cases htype : Wanted.list.IsTypeOf value
  · rcases htype with ⟨span, ofHeaders, items, rfl⟩
    have hitems : ¬∀ item ∈ items, ∃ text, item.HoldsText text := fun hitems => h (.exclude hitems)
    rcases exists_eq_append_cons_of_not_forall hitems with
      ⟨before, item, after, rfl, hbefore, hitem⟩
    exact ⟨_, .item hkey hbefore fun text htext => hitem ⟨text, htext⟩⟩
  · exact ⟨_, .wrongType hkey .exclude htype⟩

theorem exists_offends_depth (hkey : key.name = "depth".toList)
    (h : ¬Suits "depth".toList value) : ∃ objection, Offends key value objection := by
  by_cases htype : Wanted.count.IsTypeOf value
  · rcases htype with ⟨span, n, rfl, hle, hlt⟩
    by_cases hn : n < 0
    · exact ⟨_, .negativeCount hkey hle hn⟩
    · obtain ⟨n, rfl⟩ := Int.eq_ofNat_of_zero_le (Int.not_lt.1 hn)
      exact absurd (.depth (by omega)) h
  · exact ⟨_, .wrongType hkey .depth htype⟩

theorem exists_offends_output (hkey : key.name = "output".toList)
    (h : ¬Suits "output".toList value)
    (htable : ∀ span origin members, value ≠ .table span origin members) :
    ∃ objection, Offends key value objection := by
  by_cases htext : ∃ text, value.HoldsText text
  · rcases htext with ⟨text, span, rfl⟩
    refine ⟨_, .unknownFormat hkey ?_⟩
    rintro format rfl
    exact h (.output ⟨span, rfl⟩)
  · exact ⟨_, .outputUnnamed hkey (fun text h => htext ⟨text, h⟩) htable⟩

theorem exists_offends (h : ¬Suits key.name value)
    (htable : key.name = "output".toList → ∀ span origin members,
      value ≠ .table span origin members) : ∃ objection, Offends key value objection := by
  by_cases hkeys : ∀ name ∈ keys, key.name ≠ name.toList
  · exact ⟨_, .unknownKey value hkeys⟩
  · push Not at hkeys
    rcases hkeys with ⟨name, hname, hkey⟩
    rw [hkey] at h
    simp only [keys, List.mem_cons, List.not_mem_nil, or_false] at hname
    rcases hname with rfl | rfl | rfl | rfl | rfl | rfl
    · refine ⟨_, .wrongType hkey .root ?_⟩
      rintro ⟨text, htext⟩
      exact h (.root htext)
    · exact exists_offends_output hkey h (htable hkey)
    · refine ⟨_, .wrongType hkey .extension ?_⟩
      rintro ⟨text, htext⟩
      exact h (.extension htext)
    · exact exists_offends_exclude hkey h
    · refine ⟨_, .wrongType hkey .sorted ?_⟩
      rintro ⟨span, b, rfl⟩
      exact h .sorted
    · exact exists_offends_depth hkey h

/-! ### Values of a key -/

theorem bind_of_eq_error {α : Type} {read : Read α} (h : read = .error objection)
    (f : α → Read Config) : (read >>= f) = .error objection := by
  rw [h]
  rfl

theorem readText_of_not_holdsText (wanted : Wanted) (h : ∀ text, ¬value.HoldsText text) :
    readText wanted value = .error ⟨value.span, .ofValue wanted value⟩ := by
  unfold readText
  split
  next span text => exact absurd ⟨span, rfl⟩ (h text)
  next => rfl

theorem readList_array (span : Span) (ofHeaders : Bool) (items : List Value) :
    readList (.array span ofHeaders items) = items.mapM (readText .text) := rfl

theorem exists_readList_eq_ok {span : Span} {ofHeaders : Bool} {items : List Value}
    (h : ∀ item ∈ items, ∃ text, item.HoldsText text) :
    ∃ texts, readList (.array span ofHeaders items) = .ok texts := by
  simp only [readList_array]
  induction items with
  | nil => exact ⟨[], rfl⟩
  | cons item items ih =>
    rw [List.forall_mem_cons] at h
    rcases h with ⟨⟨text, htext⟩, h⟩
    rcases ih h with ⟨texts, htexts⟩
    refine ⟨text :: texts, ?_⟩
    rw [List.mapM_cons, readText_of_holdsText htext, htexts]
    rfl

theorem readList_of_item {span : Span} {ofHeaders : Bool} {before after : List Value}
    {item : Value} (hbefore : ∀ i ∈ before, ∃ text, i.HoldsText text)
    (h : ∀ text, ¬item.HoldsText text) :
    readList (.array span ofHeaders (before ++ item :: after))
      = .error ⟨item.span, .ofValue .text item⟩ := by
  rw [readList_array]
  induction before with
  | nil =>
    rw [List.nil_append, List.mapM_cons, readText_of_not_holdsText .text h]
    rfl
  | cons first before ih =>
    rw [List.forall_mem_cons] at hbefore
    rcases hbefore with ⟨⟨text, htext⟩, hbefore⟩
    rw [List.cons_append, List.mapM_cons, readText_of_holdsText htext, ih hbefore]
    rfl

theorem formatOfName_of_ne {span : Span} {name : Text}
    (h : ∀ format : OutputFormat, name ≠ format.name.toList) :
    formatOfName span name = .error ⟨span, .unknownFormat name⟩ := by
  have hnone : OutputFormat.ofName? (String.ofList name) = none := by
    rw [OutputFormat.ofName?, List.find?_eq_none]
    intro format _ heq
    apply h format
    rw [of_decide_eq_true heq, String.toList_ofList]
  rw [formatOfName, hnone]
  rfl

theorem readCount_of_negative {span : Span} {n : Int} (hle : -2 ^ 63 ≤ n) (hlt : n < 0) :
    readCount (.scalar span (.integer (some n))) = .error ⟨span, .negativeCount n⟩ := by
  have hunsigned : ¬fitsUnsigned 64 n = true := by
    rw [fitsUnsigned_iff]
    omega
  have hsigned : fitsSigned 64 n = true := by
    rw [fitsSigned_iff]
    omega
  rw [readCount, if_neg hunsigned, if_pos hsigned]
  rfl

theorem read_of_not_isTypeOf {wanted : Wanted} (h : ¬wanted.IsTypeOf value) :
    match wanted with
    | .path | .text => readText wanted value = .error ⟨value.span, .ofValue wanted value⟩
    | .list => readList value = .error ⟨value.span, .ofValue wanted value⟩
    | .flag => readFlag value = .error ⟨value.span, .ofValue wanted value⟩
    | .count => readCount value = .error ⟨value.span, .ofValue wanted value⟩ := by
  cases wanted with
  | path => exact readText_of_not_holdsText .path fun text htext => h ⟨text, htext⟩
  | text => exact readText_of_not_holdsText .text fun text htext => h ⟨text, htext⟩
  | list =>
    dsimp only
    unfold readList
    split
    next span ofHeaders items => exact absurd ⟨span, ofHeaders, items, rfl⟩ h
    next => rfl
  | flag =>
    dsimp only
    unfold readFlag
    split
    next span b => exact absurd ⟨span, b, rfl⟩ h
    next => rfl
  | count =>
    dsimp only
    unfold readCount
    split
    next span n =>
      have hunsigned : ¬fitsUnsigned 64 n = true := by
        rw [fitsUnsigned_iff]
        exact fun hn => h ⟨span, n, rfl, by omega, hn.2⟩
      have hsigned : ¬fitsSigned 64 n = true := by
        rw [fitsSigned_iff]
        exact fun hn => h ⟨span, n, rfl, hn.1, by omega⟩
      rw [if_neg hunsigned, if_neg hsigned]
      rfl
    next => rfl

/-! ### Setting a key -/

theorem exists_set_eq_ok (h : Suits key.name value) (config : Config) :
    ∃ config', config.set key value = .ok config' := by
  rcases key with ⟨name, span⟩
  dsimp only at h
  cases h with
  | root h => exact ⟨_, bind_of_eq_ok (readText_of_holdsText h .path) _⟩
  | output h => exact ⟨_, bind_of_eq_ok (readFormat_of_holds (.string h)) _⟩
  | extension h => exact ⟨_, bind_of_eq_ok (readText_of_holdsText h .text) _⟩
  | exclude h =>
    rcases exists_readList_eq_ok h with ⟨texts, htexts⟩
    exact ⟨_, bind_of_eq_ok htexts _⟩
  | @sorted span b =>
    have hread : readFlag (.scalar span (.boolean b)) = .ok b := rfl
    exact ⟨_, bind_of_eq_ok hread _⟩
  | @depth span n h => exact ⟨_, bind_of_eq_ok (readCount_of_holds (.natural span n) h) _⟩

theorem set_of_not_mem_keys (h : ∀ name ∈ keys, key.name ≠ name.toList) (config : Config)
    (value : Value) : config.set key value = .error ⟨key.span, .unknownKey key.name⟩ := by
  have hne {name : String} (hname : String.ofList key.name = name) : name ∉ keys := by
    intro hmem
    apply h name hmem
    rw [← hname, String.toList_ofList]
  unfold set
  split
  next hname => exact absurd (by decide) (hne hname)
  next hname => exact absurd (by decide) (hne hname)
  next hname => exact absurd (by decide) (hne hname)
  next hname => exact absurd (by decide) (hne hname)
  next hname => exact absurd (by decide) (hne hname)
  next hname => exact absurd (by decide) (hne hname)
  next => rfl

theorem set_of_offends (h : Offends key value objection) (config : Config) :
    config.set key value = .error objection := by
  rcases key with ⟨name, span⟩
  cases h with
  | unknownKey _ h => exact set_of_not_mem_keys h config value
  | wrongType hkey htakes h =>
    have hread := read_of_not_isTypeOf h
    dsimp only at hkey
    subst hkey
    cases htakes with
    | root => exact bind_of_eq_error hread _
    | extension => exact bind_of_eq_error hread _
    | exclude => exact bind_of_eq_error hread _
    | sorted => exact bind_of_eq_error hread _
    | depth => exact bind_of_eq_error hread _
  | item hkey hbefore h =>
    dsimp only at hkey
    subst hkey
    exact bind_of_eq_error (readList_of_item hbefore h) _
  | negativeCount hkey hle hlt =>
    dsimp only at hkey
    subst hkey
    exact bind_of_eq_error (readCount_of_negative hle hlt) _
  | unknownFormat hkey h =>
    dsimp only at hkey
    subst hkey
    exact bind_of_eq_error (formatOfName_of_ne h) _
  | outputUnnamed hkey htext htable =>
    dsimp only at hkey
    subst hkey
    have hread : readFormat value = .error ⟨value.span, .outputUnnamed⟩ := by
      cases value with
      | scalar span s =>
        cases s with
        | string text => exact absurd ⟨span, rfl⟩ (htext text)
        | integer n? => rfl
        | float value => rfl
        | boolean b => rfl
        | moment => rfl
      | array span ofHeaders items => rfl
      | table span origin members => exact absurd rfl (htable span origin members)
    exact bind_of_eq_error hread _

end Config

end ComponentTree
