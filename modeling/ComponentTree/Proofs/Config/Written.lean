import Mathlib.Data.List.Nodup
import Mathlib.Data.List.Perm.Basic
import ComponentTree.Config
import ComponentTree.Lists
import ComponentTree.Proofs.Toml.Assignments

/-!
This module contains configurations as they may be written, one line for each key that is present,
and that what is written is read back, whichever way the lines are ordered.
-/

namespace ComponentTree.Config

open Toml (Datum Entry Key Value WritesDatum WritesLine)

inductive Setting where
  | root (text : Text)
  | output (format : OutputFormat)
  | extension (text : Text)
  | exclude (names : List Text)
  | sorted (flag : Bool)
  | depth (count : Nat)

def Setting.key : Setting → String
  | root _ => "root"
  | output _ => "output"
  | extension _ => "extension"
  | exclude _ => "exclude"
  | sorted _ => "sorted"
  | depth _ => "depth"

def Setting.datum : Setting → Datum
  | root text => .string text
  | output format => .string format.name.toList
  | extension text => .string text
  | exclude names => .strings names
  | sorted flag => .boolean flag
  | depth count => .natural count

def Setting.entry (setting : Setting) : Entry :=
  ⟨setting.key.toList, setting.datum⟩

def Setting.IsBounded : Setting → Prop
  | depth count => count < Nat.pow 2 64
  | _ => True

def withSetting (config : Config) : Setting → Config
  | .root text => { config with root? := some (Path.ofText text) }
  | .output format => { config with output? := some format }
  | .extension text => { config with extension? := some text }
  | .exclude names => { config with exclude? := some names }
  | .sorted flag => { config with sorted? := some flag }
  | .depth count => { config with depth? := some count }

def settings (config : Config) (root? : Option Text) : List Setting :=
  (root?.map .root).toList ++ (config.output?.map .output).toList
    ++ (config.extension?.map .extension).toList ++ (config.exclude?.map .exclude).toList
    ++ (config.sorted?.map .sorted).toList ++ (config.depth?.map .depth).toList

/-! ### Reading the value of a key -/

theorem readText_of_holdsText {value : Value} {text : Text} (h : value.HoldsText text)
    (wanted : Wanted) : readText wanted value = .ok text := by
  rcases h with ⟨span, rfl⟩
  rfl

theorem readText_of_holds {value : Value} {text : Text} (h : value.Holds (.string text))
    (wanted : Wanted) : readText wanted value = .ok text := by
  cases h with
  | string h => exact readText_of_holdsText h wanted

theorem readList_of_holds {value : Value} {texts : List Text} (h : value.Holds (.strings texts)) :
    readList value = .ok texts := by
  cases h with
  | strings span h =>
    rw [readList]
    induction h with
    | nil => rfl
    | cons hitem _ ih =>
      rw [List.mapM_cons, readText_of_holdsText hitem, ih]
      rfl

theorem readFlag_of_holds {value : Value} {b : Bool} (h : value.Holds (.boolean b)) :
    readFlag value = .ok b := by
  cases h
  rfl

theorem readCount_of_holds {value : Value} {n : Nat} (h : value.Holds (.natural n))
    (hn : n < Nat.pow 2 64) : readCount value = .ok n := by
  cases h with
  | natural span =>
    have hfits : fitsUnsigned 64 (n : Int) = true := decide_eq_true hn
    rw [readCount, if_pos hfits]
    rfl

theorem readFormat_of_holds {value : Value} {format : OutputFormat}
    (h : value.Holds (.string format.name.toList)) : readFormat value = .ok format := by
  cases h with
  | string h =>
    rcases h with ⟨span, rfl⟩
    cases format with
    | ascii => rfl
    | html => rfl
    | json => rfl

theorem bind_of_eq_ok {α : Type} {read : Read α} {a : α} (h : read = .ok a)
    (f : α → Read Config) : (read >>= f) = f a := by
  rw [h]
  rfl

theorem set_of_isBoundBy {setting : Setting} {member : Key × Value}
    (h : setting.entry.IsBoundBy member) (hbounded : setting.IsBounded) (config : Config) :
    config.set member.1 member.2 = .ok (config.withSetting setting) := by
  rcases member with ⟨⟨name, span⟩, value⟩
  rcases h with ⟨hname, hholds⟩
  dsimp only at hname hholds ⊢
  cases setting
  all_goals
    dsimp only [Setting.entry, Setting.key] at hname
    subst hname
  case root => exact bind_of_eq_ok (readText_of_holds hholds .path) _
  case output => exact bind_of_eq_ok (readFormat_of_holds hholds) _
  case extension => exact bind_of_eq_ok (readText_of_holds hholds .text) _
  case exclude => exact bind_of_eq_ok (readList_of_holds hholds) _
  case sorted => exact bind_of_eq_ok (readFlag_of_holds hholds) _
  case depth => exact bind_of_eq_ok (readCount_of_holds hholds hbounded) _

/-! ### Making several settings -/

theorem foldlM_set {settings : List Setting} {members : List (Key × Value)}
    (h : List.Forall₂ (fun s member => s.entry.IsBoundBy member) settings members)
    (hbounded : ∀ s ∈ settings, s.IsBounded) (config : Config) :
    members.foldlM (fun config (key, value) => config.set key value) config
      = .ok (settings.foldl withSetting config) := by
  induction h generalizing config with
  | nil => rfl
  | @cons setting member settings members hmember _ ih =>
    rw [List.forall_mem_cons] at hbounded
    rw [List.foldlM_cons, List.foldl_cons]
    have := set_of_isBoundBy hmember hbounded.1 config
    rw [bind_of_eq_ok this]
    exact ih hbounded.2 _

theorem withSetting_comm {s s' : Setting} (h : s.key ≠ s'.key) (config : Config) :
    (config.withSetting s).withSetting s' = (config.withSetting s').withSetting s := by
  cases s <;> cases s' <;> first | rfl | exact absurd rfl h

theorem foldl_withSetting_of_perm {settings settings' : List Setting}
    (h : settings'.Perm settings) (hnodup : (settings.map Setting.key).Nodup)
    (config : Config) : settings'.foldl withSetting config = settings.foldl withSetting config :=
  foldl_eq_of_perm h hnodup (fun _ _ _ _ hkey => withSetting_comm hkey) config

/-! ### The settings of a configuration -/

theorem nodup_keys_settings (config : Config) (root? : Option Text) :
    ((config.settings root?).map Setting.key).Nodup := by
  have hkeys : keys
      = ["root"] ++ ["output"] ++ ["extension"] ++ ["exclude"] ++ ["sorted"] ++ ["depth"] := rfl
  have hsublist : ((config.settings root?).map Setting.key).Sublist keys := by
    rw [hkeys]
    simp only [settings, List.map_append]
    refine .append (.append (.append (.append (.append ?_ ?_) ?_) ?_) ?_) ?_
    all_goals exact map_toList_map_sublist_singleton _ fun _ => rfl
  apply hsublist.nodup
  decide

theorem foldl_settings {config : Config} {root? : Option Text}
    (hroot : config.root? = root?.map Path.ofText) :
    (config.settings root?).foldl withSetting {} = config := by
  rcases config with ⟨root, output?, extension?, exclude?, sorted?, depth?⟩
  obtain rfl : root = root?.map Path.ofText := hroot
  cases root? <;> cases output? <;> cases extension? <;> cases exclude? <;> cases sorted? <;>
    cases depth? <;> rfl

theorem isBounded_of_mem_settings {config : Config} {root? : Option Text} {setting : Setting}
    (hdepth : ∀ n ∈ config.depth?, n < Nat.pow 2 64) (h : setting ∈ config.settings root?) :
    setting.IsBounded := by
  cases setting with
  | depth count =>
    have hcount : config.depth? = some count := by simpa [settings] using h
    exact hdepth count hcount
  | _ => trivial

/-! ### Reading what is written -/

theorem ofTable_of_isBoundBy {settings : List Setting} {table : Toml.Table}
    (h : List.Forall₂ (fun s member => s.entry.IsBoundBy member) settings table.members)
    (hbounded : ∀ s ∈ settings, s.IsBounded)
    (hnodup : (settings.map Setting.key).Nodup) :
    ofTable table = .ok (settings.foldl withSetting {}) := by
  -- The members are taken in the order of their keys, which is one of the orders of the settings.
  rw [ofTable]
  generalize hsorted : table.members.mergeSort _ = sorted
  have hperm : sorted.Perm table.members := hsorted ▸ List.mergeSort_perm _ _
  rcases List.perm_comp_forall₂ hperm h.flip with ⟨settings', hbound, hsettings⟩
  rw [foldlM_set hbound.flip fun s hs => hbounded s (hsettings.mem_iff.1 hs),
    foldl_withSetting_of_perm hsettings hnodup]

theorem ofText_unlines_of_perm {settings : List Setting} {written lines : List Text}
    (hwritten : List.Forall₂ (fun s line => WritesLine s.entry line) settings written)
    (hperm : lines.Perm written) (hbounded : ∀ s ∈ settings, s.IsBounded)
    (hnodup : (settings.map Setting.key).Nodup) :
    ofText (Text.unlines lines) = .ok (settings.foldl withSetting {}) := by
  rcases List.perm_comp_forall₂ hperm hwritten.flip with ⟨settings', hlines, hsettings⟩
  have hnodup' : (settings'.map Setting.key).Nodup :=
    (hsettings.map _).nodup_iff.2 hnodup
  have hentries : List.Forall₂ WritesLine (settings'.map Setting.entry) lines :=
    List.forall₂_map_left_iff.2 hlines.flip
  have hnames : ((settings'.map Setting.entry).map Entry.name).Nodup := by
    have := hnodup'.map fun _ _ => String.toList_inj.1
    rwa [List.map_map] at this ⊢
  rcases Toml.ofDocument_unlines hentries hnames with ⟨members, htable, hbound⟩
  rw [List.forall₂_map_left_iff] at hbound
  rw [ofText, htable]
  dsimp only
  rw [ofTable_of_isBoundBy hbound (fun s hs => hbounded s (hsettings.mem_iff.1 hs)) hnodup',
    foldl_withSetting_of_perm hsettings hnodup]
  rfl

/-! ### Writing -/

def Setting.line (setting : Setting) : Text :=
  setting.entry.name ++ ' ' :: '=' :: ' ' :: Toml.writeDatum setting.entry.datum

theorem isBareKey_key (setting : Setting) : Toml.IsBareKey setting.key.toList := by
  have hkeys : ∀ key ∈ keys,
      key.toList ≠ [] ∧ key.toList.all Toml.isBareKeyChar = true := by decide
  have hmem : setting.key ∈ keys := by
    cases setting <;> simp [Setting.key, keys]
  exact ⟨(hkeys _ hmem).1, List.all_eq_true.1 (hkeys _ hmem).2⟩

theorem writesLine_line (setting : Setting) : WritesLine setting.entry setting.line :=
  .assigned (isBareKey_key setting) (Toml.writesDatum_writeDatum _)

theorem ofText_written {config : Config} {root? : Option Text}
    (hroot : config.root? = root?.map Path.ofText)
    (hdepth : ∀ n ∈ config.depth?, n < Nat.pow 2 64) :
    (∃ written, List.Forall₂ (fun s line => WritesLine s.entry line) (config.settings root?)
      written) ∧
    ∀ written lines,
      List.Forall₂ (fun s line => WritesLine s.entry line) (config.settings root?) written →
      lines.Perm written →
      ofText (Text.unlines lines) = .ok config ∧
      config.scanOptions =
        { extension := config.extension?.getD "vue".toList
          excluded := config.exclude?.getD ["node_modules".toList]
          sorted := config.sorted?.getD false } := by
  refine ⟨⟨(config.settings root?).map Setting.line, ?_⟩, ?_⟩
  · rw [List.forall₂_map_right_iff, List.forall₂_same]
    exact fun setting _ => writesLine_line setting
  · intro written lines hwritten hperm
    refine ⟨?_, rfl⟩
    rw [ofText_unlines_of_perm hwritten hperm (fun _ => isBounded_of_mem_settings hdepth)
      (nodup_keys_settings config root?), foldl_settings hroot]

def fullConfig : Config where
  root? := some (Path.ofText "a\x22\\é\n\x00".toList)
  output? := some .json
  extension? := some "\x7f😀".toList
  exclude? := some [[], ", ]\t".toList]
  sorted? := some true
  depth? := some (Nat.pow 2 64 - 1)

theorem ofText_written_fullConfig :
    fullConfig.root? = (some "a\x22\\é\n\x00".toList).map Path.ofText ∧
    (∀ n ∈ fullConfig.depth?, n < Nat.pow 2 64) ∧
    ofText (Text.unlines
      ((fullConfig.settings (some "a\x22\\é\n\x00".toList)).map Setting.line).reverse)
        = .ok fullConfig := by
  have hroot : fullConfig.root? = (some "a\x22\\é\n\x00".toList).map Path.ofText := rfl
  have hdepth : ∀ n ∈ fullConfig.depth?, n < Nat.pow 2 64 := by
    rintro n ⟨⟩
    decide
  refine ⟨hroot, hdepth, ((ofText_written hroot hdepth).2 _ _ ?_ (List.reverse_perm _)).1⟩
  rw [List.forall₂_map_right_iff, List.forall₂_same]
  exact fun setting _ => writesLine_line setting

end ComponentTree.Config
