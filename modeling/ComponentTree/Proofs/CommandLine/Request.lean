import ComponentTree.Lists
import ComponentTree.Proofs.CommandLine.Reading
import ComponentTree.Run

/-!
This module contains what can be asked for on a command line, and that it is what is read from any
arguments that ask for it: however each option is written, in whichever order the options stand, and
wherever the targets stand among them.
-/

namespace ComponentTree

def Verbosity.flag? : Verbosity → Option CommandLine.Flag
  | normal => none
  | verbose => some .verbose
  | quiet => some .quiet

namespace CommandLine

structure Request where
  targets : List Text
  root? : Option Text := none
  output? : Option OutputFormat := none
  depth? : Option Nat := none
  sorted : Bool := false
  config? : Option Text := none
  verbosity : Verbosity := .normal
  targets_ne_nil : targets ≠ []
  ne_nil_of_mem_targets : ∀ word ∈ targets, word ≠ []
  root_ne_nil : ∀ text ∈ root?, text ≠ []
  depth_lt : ∀ n ∈ depth?, n < Nat.pow 2 64
  config_ne_nil : ∀ text ∈ config?, text ≠ []

namespace Request

def line (request : Request) : CommandLine where
  targets := request.targets.map Path.ofText
  root? := request.root?.map Path.ofText
  output? := request.output?
  depth? := request.depth?
  sorted := request.sorted
  config? := request.config?.map Path.ofText
  verbosity := request.verbosity

def settings (request : Request) (config : Config) (workingDirectory : Path) :
    Except Failure Settings :=
  let depth? := request.depth?.or config.depth?
  if h : depth? = some 0 then .error (.depthInvalid 0)
  else
    .ok {
      targets := request.targets.map Path.ofText
      root := ((request.root?.map Path.ofText).or config.root?).getD workingDirectory
      output := (request.output?.or config.output?).getD .ascii
      scan := { config.scanOptions with sorted := config.scanOptions.sorted || request.sorted }
      limit := ⟨depth?⟩
      limit_ne_zero := h }

def flags (request : Request) : List Flag :=
  (if request.sorted then [.sorted] else []) ++ request.verbosity.flag?.toList

def choices (request : Request) : List Choice :=
  (request.root?.map .root).toList ++ (request.output?.map .output).toList
    ++ (request.depth?.map .depth).toList ++ (request.config?.map .config).toList
    ++ request.flags.map .flag

structure IsMadeOf (request : Request) (parts : List Part) : Prop where
  choices : (parts.filterMap Part.choice?).Perm request.choices
  targets : parts.filterMap Part.target? = request.targets

def IsWrittenBy (request : Request) (args : List Text) : Prop :=
  ∃ parts, request.IsMadeOf parts ∧ Writes parts args

end Request

/-! ### The order of the parts -/

namespace Progress

theorem choose_aim (p : Progress) (choice : Choice) (word : Text) :
    (p.aim word).choose choice = (p.choose choice).aim word := by
  cases choice with
  | flag flag => cases flag <;> rfl
  | _ => rfl

theorem foldl_choose_aim (p : Progress) (choices : List Choice) (word : Text) :
    choices.foldl choose (p.aim word) = (choices.foldl choose p).aim word := by
  induction choices generalizing p with
  | nil => rfl
  | cons choice choices ih => rw [List.foldl_cons, List.foldl_cons, choose_aim, ih]

theorem foldl_add (p : Progress) (parts : List Part) :
    parts.foldl add p
      = (parts.filterMap Part.target?).foldl aim
          ((parts.filterMap Part.choice?).foldl choose p) := by
  induction parts generalizing p with
  | nil => rfl
  | cons part parts ih =>
    rw [List.foldl_cons, ih]
    cases part with
    | choice choice => rfl
    | target word =>
      rw [add, foldl_choose_aim]
      rfl

theorem foldl_aim (p : Progress) (words : List Text) :
    words.foldl aim p
      = { p with line.targets := p.line.targets ++ words.map Path.ofText } := by
  induction words generalizing p with
  | nil => rw [List.foldl_nil, List.map_nil, List.append_nil]
  | cons word words ih =>
    rw [List.foldl_cons, ih, List.map_cons, ← List.singleton_append, ← List.append_assoc]
    rfl

theorem choose_comm {choice choice' : Choice} (h : choice.switch ≠ choice'.switch)
    (hflags : ∀ flag flag', choice = .flag flag → choice' = .flag flag' →
      flag = .sorted ∨ flag' = .sorted) (p : Progress) :
    (p.choose choice).choose choice' = (p.choose choice').choose choice := by
  cases choice with
  | flag flag =>
    cases choice' with
    | flag flag' =>
      cases hflags flag flag' rfl rfl with
      | inl hsorted =>
        subst hsorted
        cases flag' with
        | sorted => exact absurd rfl h
        | verbose | quiet => rfl
      | inr hsorted =>
        subst hsorted
        cases flag with
        | sorted => exact absurd rfl h
        | verbose | quiet => rfl
    | _ => cases flag <;> rfl
  | _ =>
    cases choice' with
    | flag flag' => cases flag' <;> rfl
    | _ => first | rfl | exact absurd rfl h

end Progress

namespace Request

variable {request : Request}

theorem flags_sublist (request : Request) :
    request.flags.Sublist [.sorted, .verbose, .quiet] := by
  rw [flags]
  cases request.sorted <;> cases request.verbosity <;> decide

theorem nodup_switches (request : Request) : (request.choices.map Choice.switch).Nodup := by
  have hsublist : (request.choices.map Choice.switch).Sublist
      ([.setting .root] ++ [.setting .output] ++ [.setting .depth] ++ [.setting .config]
        ++ [Flag.sorted, .verbose, .quiet].map .flag) := by
    simp only [choices, List.map_append]
    refine .append (.append (.append (.append ?_ ?_) ?_) ?_) ?_
    case refine_5 =>
      rw [List.map_map]
      exact request.flags_sublist.map _
    all_goals exact map_toList_map_sublist_singleton _ fun _ => rfl
  apply hsublist.nodup
  decide

theorem flag_mem_choices {flag : Flag} (h : .flag flag ∈ request.choices) :
    flag = .sorted ∨ request.verbosity.flag? = some flag := by
  have hmem : flag ∈ request.flags := by simpa [choices] using h
  cases List.mem_append.1 hmem with
  | inl hsorted =>
    left
    split at hsorted
    · exact List.mem_singleton.1 hsorted
    · cases hsorted
  | inr hflag => exact .inr (Option.mem_toList.1 hflag)

theorem foldl_choose_of_perm {choices : List Choice} (h : choices.Perm request.choices)
    (p : Progress) :
    choices.foldl Progress.choose p = request.choices.foldl Progress.choose p := by
  apply foldl_eq_of_perm h request.nodup_switches
  intro choice hchoice choice' hchoice' hswitch
  apply Progress.choose_comm hswitch
  -- There is one flag for the verbosity, so that no other has to keep its place beside it.
  rintro flag flag' rfl rfl
  cases flag_mem_choices hchoice with
  | inl hsorted => exact .inl hsorted
  | inr hflag =>
    cases flag_mem_choices hchoice' with
    | inl hsorted => exact .inr hsorted
    | inr hflag' =>
      rw [hflag, Option.some.injEq] at hflag'
      exact absurd (congrArg Switch.flag hflag') hswitch

def progress (request : Request) : Progress where
  line := { request.line with verbosity := .normal }
  loudness := request.verbosity.flag?.toList

theorem foldl_choices (request : Request) :
    request.choices.foldl Progress.choose {}
      = { request.progress with line.targets := [] } := by
  rcases request with ⟨targets, root?, output?, depth?, sorted, config?, verbosity⟩
  cases root? <;> cases output? <;> cases depth? <;> cases sorted <;> cases config? <;>
    cases verbosity <;> rfl

theorem IsMadeOf.foldl_add {parts : List Part} (h : request.IsMadeOf parts) :
    parts.foldl Progress.add {} = request.progress := by
  rw [Progress.foldl_add, foldl_choose_of_perm h.choices, h.targets, foldl_choices,
    Progress.foldl_aim]
  rfl

theorem finish_eq_ok {s : Progress} (hs : s.ComesTo request.progress) :
    s.finish = .ok request.line := by
  have htargets : request.progress.line.targets ≠ [] :=
    fun h => request.targets_ne_nil (List.map_eq_nil_iff.1 h)
  rw [Progress.finish, hs.settle_eq]
  rcases request with ⟨targets, root?, output?, depth?, sorted, config?, verbosity⟩
  cases verbosity <;> exact if_neg htargets

theorem ofArguments_of_isWrittenBy {args : List Text} (h : request.IsWrittenBy args) :
    ofArguments args = .ok request.line := by
  rcases h with ⟨parts, hparts, hargs⟩
  have hfree : ({} : Progress).Allows (parts.filterMap Part.choice?) := by
    refine ⟨(hparts.choices.map _).nodup_iff.2 request.nodup_switches, fun choice _ => ?_⟩
    cases choice with
    | flag flag => cases flag <;> rfl
    | _ => rfl
  rcases Progress.exists_arguments_eq_ok hargs (Progress.comesTo_self rfl) hfree with
    ⟨s, hs, hcomes⟩
  rw [hparts.foldl_add] at hcomes
  rw [ofArguments, hs]
  exact finish_eq_ok hcomes

theorem ofCommandLine_line (request : Request) (config : Config) (workingDirectory : Path) :
    Settings.ofCommandLine request.line config workingDirectory
      = request.settings config workingDirectory := by
  rcases request with ⟨targets, root?, output?, depth?, sorted, config?, verbosity⟩
  cases root? <;> cases output? <;> cases depth? <;> rfl

theorem exists_writesChoices {choice : Choice} (h : choice ∈ request.choices) :
    ∃ args, WritesChoices [choice] args := by
  cases choice with
  | root text =>
    have htext : request.root? = some text := by simpa [choices] using h
    exact ⟨_, .joined (.root (request.root_ne_nil text htext))⟩
  | output format => exact ⟨_, .joined (.output format)⟩
  | depth n =>
    have hdepth : request.depth? = some n := by simpa [choices] using h
    exact ⟨_, .joined (.depth (.plain 0) (request.depth_lt n hdepth))⟩
  | config text =>
    have htext : request.config? = some text := by simpa [choices] using h
    exact ⟨_, .joined (.config (request.config_ne_nil text htext))⟩
  | flag flag => exact ⟨_, .flag flag⟩

theorem IsMadeOf.exists_writes {parts : List Part} (h : request.IsMadeOf parts)
    (hplaceable : IsPlaceable parts) : ∃ args, Writes parts args := by
  apply CommandLine.exists_writes hplaceable
  · intro choice hchoice
    exact exists_writesChoices (h.choices.mem_iff.1 (List.mem_filterMap.2 ⟨_, hchoice, rfl⟩))
  · intro word hword
    apply request.ne_nil_of_mem_targets
    rw [← h.targets]
    exact List.mem_filterMap.2 ⟨_, hword, rfl⟩

theorem isMadeOf_append (request : Request) :
    request.IsMadeOf (request.choices.map .choice ++ request.targets.map .target) where
  choices := by
    simp [List.filterMap_map, Function.comp_def, Part.choice?]
  targets := by
    simp [List.filterMap_map, Function.comp_def, Part.target?]

theorem ofArguments_written (request : Request) :
    (∃ args, request.IsWrittenBy args) ∧
    (∀ parts, request.IsMadeOf parts → IsPlaceable parts → ∃ args, Writes parts args) ∧
    ∀ args, request.IsWrittenBy args →
      ofArguments args = .ok request.line ∧
      ∀ config workingDirectory,
        (ofArguments args).map (Settings.ofCommandLine · config workingDirectory)
          = .ok (request.settings config workingDirectory) := by
  have hwritable (parts : List Part) (h : request.IsMadeOf parts) (hplaceable : IsPlaceable parts) :
      ∃ args, Writes parts args := h.exists_writes hplaceable
  refine ⟨?_, hwritable, fun args hargs => ?_⟩
  · have hplaceable : IsPlaceable (request.choices.map .choice ++ request.targets.map .target) :=
      ⟨_, _, rfl, by simp⟩
    rcases hwritable _ request.isMadeOf_append hplaceable with ⟨args, hargs⟩
    exact ⟨args, _, request.isMadeOf_append, hargs⟩
  · have hline := ofArguments_of_isWrittenBy hargs
    refine ⟨hline, fun config workingDirectory => ?_⟩
    rw [hline, ← ofCommandLine_line]
    rfl

def misleading : Request where
  targets := ["-".toList, "a=b".toList, "--root".toList]
  root? := some "=x".toList
  output? := some .json
  depth? := some 7
  sorted := true
  config? := some "-c".toList
  verbosity := .verbose
  targets_ne_nil := by decide
  ne_nil_of_mem_targets := by decide
  root_ne_nil := by decide
  depth_lt := by decide
  config_ne_nil := by decide

def misleadingArguments : List Text :=
  ["-", "-vd", "+007", "--sorted", "a=b", "-r==x", "--config=-c", "-ojson", "--", "--root"].map
    String.toList

def misleadingParts : List Part :=
  [.target "-".toList, .choice (.flag .verbose), .choice (.depth 7), .choice (.flag .sorted),
    .target "a=b".toList, .choice (.root "=x".toList), .choice (.config "-c".toList),
    .choice (.output .json), .target "--root".toList]

theorem ofArguments_written_misleading :
    misleading.IsMadeOf misleadingParts ∧ IsPlaceable misleadingParts ∧
    (∃ args, Writes misleadingParts args) ∧
    misleading.IsWrittenBy misleadingArguments ∧
    ofArguments misleadingArguments = .ok misleading.line ∧
    ∀ config workingDirectory,
      (ofArguments misleadingArguments).map (Settings.ofCommandLine · config workingDirectory)
        = .ok (misleading.settings config workingDirectory) := by
  have hparts : misleading.IsMadeOf misleadingParts := ⟨by decide, rfl⟩
  have hplaceable : IsPlaceable misleadingParts := by
    refine ⟨misleadingParts.take 8, ["--root".toList], rfl, fun word hword => ?_⟩
    have hword : word = "-".toList ∨ word = "a=b".toList := by
      simpa [misleadingParts] using hword
    rcases hword with rfl | rfl
    · exact .inl rfl
    · exact .inr (by decide)
  have hwritten : Writes misleadingParts misleadingArguments := by
    have hlast : Writes [.target "--root".toList] ["--".toList, "--root".toList] :=
      @Writes.ended ["--root".toList] (by decide)
    have houtput := Writes.choices (.clusterAttached .nil (.output .json) (by decide)) hlast
    have hconfig := Writes.choices (.joined (.config (List.cons_ne_nil '-' ['c']))) houtput
    have hroot := Writes.choices (.clusterJoined .nil (.root (List.cons_ne_nil '=' ['x']))) hconfig
    have htarget := Writes.target (.inr (by decide : "a=b".toList.head? ≠ some '-'))
      (by decide) hroot
    have hsorted := Writes.choices (.flag .sorted) htarget
    have hletters : WritesLetters [.verbose] ['v'] := .cons rfl .nil
    have hcount : WritesCount 7 "+007".toList := .signed 2
    have hdepth := Writes.choices
      (.clusterDetached hletters (.depth hcount (by decide)) (.inr (by decide))) hsorted
    exact .target (.inl rfl) (by decide) hdepth
  have hasked : misleading.IsWrittenBy misleadingArguments := ⟨misleadingParts, hparts, hwritten⟩
  have hread := ofArguments_written misleading
  exact ⟨hparts, hplaceable, hread.2.1 _ hparts hplaceable, hasked, hread.2.2 _ hasked⟩

end Request

end CommandLine

end ComponentTree
