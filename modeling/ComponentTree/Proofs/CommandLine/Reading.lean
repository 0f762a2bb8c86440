import Mathlib.Data.List.Nodup
import ComponentTree.Proofs.CommandLine.Written

/-!
This module contains that what is written on a command line is read back from it, whichever way it
is written: the value of an option and the latest targets may not have been looked at yet, but what
has been read comes to the same once they are.
-/

namespace ComponentTree.CommandLine

theorem Switch.ofName?_setting (setting : Setting) :
    ofName? setting.name.toList = some (.setting setting) := by
  cases setting <;> rfl

theorem Switch.ofName?_flag (flag : Flag) : ofName? flag.name.toList = some (.flag flag) := by
  cases flag <;> rfl

theorem Switch.ofLetter?_setting (setting : Setting) :
    ofLetter? setting.letter = some (.setting setting) := by
  cases setting <;> rfl

theorem Switch.ofLetter?_flag {flag : Flag} {c : Char} (h : flag.letter? = some c) :
    ofLetter? c = some (.flag flag) := by
  cases flag with
  | sorted => cases h
  | verbose | quiet =>
    cases h
    rfl

namespace Progress

variable {s p : Progress} {setting : Setting} {flag : Flag} {value word : Text} {choice : Choice}
  {choices choices' : List Choice} {parts : List Part} {words args : List Text}

/-! ### What has been read -/

def choose (p : Progress) : Choice → Progress
  | .root text => { p with line.root? := some (Path.ofText text) }
  | .output format => { p with line.output? := some format }
  | .depth count => { p with line.depth? := some count }
  | .config text => { p with line.config? := some (Path.ofText text) }
  | .flag .sorted => { p with line.sorted := true }
  | .flag flag => { p with loudness := p.loudness ++ [flag] }

def aim (p : Progress) (word : Text) : Progress :=
  { p with line.targets := p.line.targets ++ [Path.ofText word] }

def add (p : Progress) : Part → Progress
  | .choice choice => p.choose choice
  | .target word => p.aim word

theorem pending_choose (p : Progress) (choice : Choice) :
    (p.choose choice).pending = p.pending := by
  cases choice with
  | flag flag => cases flag <;> rfl
  | _ => rfl

theorem has_choose (p : Progress) (choice : Choice) (switch : Switch) :
    (p.choose choice).has switch = (decide (choice.switch = switch) || p.has switch) := by
  cases choice with
  | flag flag =>
    cases flag <;> rcases switch with ⟨⟨⟩⟩ | ⟨⟨⟩⟩ | _ | _ <;> simp [choose, has, Choice.switch]
  | _ => rcases switch with ⟨⟨⟩⟩ | ⟨⟨⟩⟩ | _ | _ <;> simp [choose, has, Choice.switch]

theorem has_aim (p : Progress) (word : Text) (switch : Switch) :
    (p.aim word).has switch = p.has switch := by
  rcases switch with ⟨⟨⟩⟩ | ⟨⟨⟩⟩ | _ | _ <;> rfl

structure Allows (p : Progress) (choices : List Choice) : Prop where
  nodup : (choices.map Choice.switch).Nodup
  has_eq_false : ∀ choice ∈ choices, p.has choice.switch = false

theorem Allows.left (h : p.Allows (choices ++ choices')) : p.Allows choices where
  nodup := by
    have := h.nodup
    rw [List.map_append] at this
    exact this.of_append_left
  has_eq_false choice hchoice := h.has_eq_false choice (List.mem_append_left _ hchoice)

theorem Allows.tail (h : p.Allows (choice :: choices)) : (p.choose choice).Allows choices where
  nodup := (List.nodup_cons.1 h.nodup).2
  has_eq_false choice' hchoice' := by
    rw [has_choose, h.has_eq_false choice' (List.mem_cons_of_mem _ hchoice'), Bool.or_false,
      decide_eq_false_iff_not]
    intro heq
    apply (List.nodup_cons.1 h.nodup).1
    rw [heq]
    exact List.mem_map_of_mem hchoice'

theorem Allows.aim (h : p.Allows choices) : (p.aim word).Allows choices where
  nodup := h.nodup
  has_eq_false choice hchoice := by rw [has_aim, h.has_eq_false choice hchoice]

theorem Allows.right (h : p.Allows (choices ++ choices')) :
    (choices.foldl choose p).Allows choices' := by
  induction choices generalizing p with
  | nil => exact h
  | cons choice choices ih => exact ih h.tail

/-- What has been read comes to `p` once all of it has been looked at. -/
structure ComesTo (s p : Progress) : Prop where
  settle_eq : s.settle = .ok p
  pending_eq : p.pending = .nothing

theorem comesTo_self (h : p.pending = .nothing) : p.ComesTo p where
  settle_eq := by
    rcases p with ⟨line, loudness, pending⟩
    cases h
    rfl
  pending_eq := h

theorem ComesTo.choose (hs : s.ComesTo p) (choice : Choice) :
    (p.choose choice).ComesTo (p.choose choice) :=
  comesTo_self ((pending_choose p choice).trans hs.pending_eq)

/-! ### Options -/

theorem set_of_says (h : setting.Says value choice) (hfree : p.has choice.switch = false) :
    p.set setting value = .ok (p.choose choice) := by
  have hif : p.has (.setting setting) ≠ true := by
    rw [← h.switch_eq, hfree]
    exact Bool.false_ne_true
  unfold set
  dsimp only
  rw [if_neg hif]
  cases h with
  | root h =>
    dsimp only
    rw [readPath_of_ne_nil _ h]
    rfl
  | config h =>
    dsimp only
    rw [readPath_of_ne_nil _ h]
    rfl
  | output format =>
    dsimp only
    rw [readFormat_name]
    rfl
  | depth h hn =>
    dsimp only
    rw [readDepth_of_writesCount h hn]
    rfl

theorem take_of_says (hs : s.ComesTo p) (h : setting.Says value choice)
    (hfree : p.has choice.switch = false) : s.take setting value = .ok (p.choose choice) := by
  rw [take, hs.settle_eq]
  exact set_of_says h hfree

theorem raise_eq_ok (hs : s.ComesTo p) (hfree : p.has (.flag flag) = false) :
    s.raise flag = .ok (p.choose (.flag flag)) := by
  have hraise : s.raise flag = if p.has (.flag flag) then refuse (.repeated (.flag flag))
      else .ok (p.choose (.flag flag)) := by
    rw [raise, hs.settle_eq]
    cases flag <;> rfl
  rw [hraise, hfree]
  rfl

theorem await_eq_ok (hs : s.ComesTo p) (setting : Setting) :
    s.await setting = .ok { p with pending := .setting setting none } := by
  rw [await, hs.settle_eq]
  rfl

theorem comesTo_choose_of_pending (hp : p.pending = .nothing) (h : setting.Says value choice)
    (hfree : p.has choice.switch = false) :
    ComesTo { p with pending := .setting setting (some value) } (p.choose choice) where
  settle_eq := by
    rw [← set_of_says h hfree]
    rcases p with ⟨line, loudness, pending⟩
    cases hp
    rfl
  pending_eq := by rw [pending_choose, hp]

/-! ### Targets -/

theorem settle_of_targets (hp : s.pending = .targets words) :
    s.settle = (words.mapM (readPath targetsLabel)).map fun targets =>
      { s with pending := .nothing, line.targets := s.line.targets ++ targets } := by
  rw [settle, hp]
  dsimp only
  cases words.mapM (readPath targetsLabel) <;> rfl

theorem comesTo_aim_of_pending (hp : p.pending = .nothing) (hne : word ≠ []) :
    ComesTo { p with pending := .targets [word] } (p.aim word) where
  settle_eq := by
    rw [settle_of_targets rfl, List.mapM_cons, readPath_of_ne_nil _ hne]
    rcases p with ⟨line, loudness, pending⟩
    cases hp
    rfl
  pending_eq := hp

theorem comesTo_aim_of_targets (hs : s.ComesTo p)
    (hp : s.pending = .targets words) (hne : word ≠ []) :
    ComesTo { s with pending := .targets (words ++ [word]) } (p.aim word) where
  settle_eq := by
    have hsettle := hs.settle_eq
    rw [settle_of_targets hp] at hsettle
    rw [settle_of_targets rfl, List.mapM_append, List.mapM_cons, readPath_of_ne_nil _ hne]
    -- The row was fit to be looked at without the last word, so that it has no fault.
    cases hwords : words.mapM (readPath targetsLabel) with
    | error stop =>
      rw [hwords] at hsettle
      cases hsettle
    | ok targets =>
      rw [hwords] at hsettle
      cases hsettle
      rw [aim, List.append_assoc]
      rfl
  pending_eq := hs.pending_eq

theorem exists_target_eq_ok (hs : s.ComesTo p) (hne : word ≠ []) :
    ∃ s', s.target word = .ok s' ∧ s'.ComesTo (p.aim word) := by
  unfold target
  split
  next words hp => exact ⟨_, rfl, comesTo_aim_of_targets hs hp hne⟩
  next =>
    rw [hs.settle_eq]
    exact ⟨_, rfl, comesTo_aim_of_pending hs.pending_eq hne⟩

theorem word_eq_target (hs : s.ComesTo p) (word : Text) : s.word word = s.target word := by
  unfold Progress.word
  split
  next setting hp =>
    have hsettle := hs.settle_eq
    rw [settle, hp] at hsettle
    cases hsettle
  next => rfl

theorem exists_foldlM_target_eq_ok (hs : s.ComesTo p)
    (hne : ∀ word ∈ words, word ≠ []) :
    ∃ s', words.foldlM target s = .ok s' ∧ s'.ComesTo (words.foldl aim p) := by
  induction words generalizing s p with
  | nil => exact ⟨s, rfl, hs⟩
  | cons word words ih =>
    rw [List.forall_mem_cons] at hne
    rcases exists_target_eq_ok hs hne.1 with ⟨s', hs', hcomes⟩
    rcases ih hcomes hne.2 with ⟨s'', hs'', hcomes⟩
    refine ⟨s'', ?_, hcomes⟩
    rw [List.foldlM_cons, hs']
    exact hs''

/-! ### Arguments -/

theorem argument_flag (s : Progress) (flag : Flag) :
    s.argument ('-' :: '-' :: flag.name.toList) = s.raise flag := by
  have hlong : s.argument ('-' :: '-' :: flag.name.toList) = s.long flag.name.toList none := by
    cases flag <;> rfl
  rw [hlong, long, Switch.ofName?_flag]

theorem argument_setting (s : Progress) (setting : Setting) :
    s.argument ('-' :: '-' :: setting.name.toList) = s.await setting := by
  have hlong : s.argument ('-' :: '-' :: setting.name.toList)
      = s.long setting.name.toList none := by
    cases setting <;> rfl
  rw [hlong, long, Switch.ofName?_setting]

theorem argument_joined (s : Progress) (setting : Setting) (value : Text) :
    s.argument ('-' :: '-' :: (setting.name.toList ++ '=' :: value)) = s.take setting value := by
  have hname : (setting.name.toList ++ '=' :: value).takeWhile (· ≠ '=')
      = setting.name.toList := by
    cases setting <;> rfl
  have hlength : setting.name.toList.length ≠ (setting.name.toList ++ '=' :: value).length := by
    rw [List.length_append, List.length_cons]
    omega
  have hvalue : (setting.name.toList ++ '=' :: value).drop (setting.name.toList.length + 1)
      = value := by
    rw [List.drop_length_add_append]
    rfl
  simp only [argument]
  rw [hname, if_neg hlength, hvalue, long, Switch.ofName?_setting]

theorem argument_plain (s : Progress) (h : IsPlain word) : s.argument word = s.word word := by
  unfold argument
  split
  · exact absurd rfl (h.ne _ _)
  · exact absurd rfl (h.ne _ _)
  · rfl

theorem argument_letters (s : Progress) {letters : Text} (hne : letters ≠ [])
    (hhyphen : letters.head? ≠ some '-') : s.argument ('-' :: letters) = s.short letters := by
  cases letters with
  | nil => exact absurd rfl hne
  | cons c letters =>
    rw [argument]
    rintro rfl
    exact hhyphen rfl

theorem short_setting (s : Progress) (setting : Setting) :
    s.short [setting.letter] = s.await setting := by
  rw [short, Switch.ofLetter?_setting]

theorem short_joined (s : Progress) (setting : Setting) (value : Text) :
    s.short (setting.letter :: '=' :: value) = s.take setting value := by
  rw [short, Switch.ofLetter?_setting]
  rfl

theorem short_attached (s : Progress) (setting : Setting) (hne : value ≠ [])
    (hfront : value.head? ≠ some '=') :
    s.short (setting.letter :: value) = s.take setting value := by
  rw [short, Switch.ofLetter?_setting]
  dsimp only
  split
  · exact absurd rfl hne
  · exact absurd rfl hfront
  · rfl

theorem exists_short_append {flags : List Flag} {letters : Text}
    (hletters : WritesLetters flags letters) (hs : s.ComesTo p)
    (hfree : p.Allows (flags.map .flag)) :
    ∃ s' : Progress, s'.ComesTo ((flags.map .flag).foldl choose p)
      ∧ ∀ rest, s.short (letters ++ rest) = s'.short rest := by
  induction hletters generalizing s p with
  | nil => exact ⟨s, hs, fun _ => rfl⟩
  | @cons flag c flags letters hletter _ ih =>
    have hraise := raise_eq_ok hs (hfree.has_eq_false _ List.mem_cons_self)
    rcases ih (hs.choose _) hfree.tail with ⟨s', hs', hshort⟩
    refine ⟨s', hs', fun rest => ?_⟩
    rw [List.cons_append, short, Switch.ofLetter?_flag hletter]
    dsimp only
    rw [hraise]
    exact hshort rest

theorem arguments_cons {s' : Progress} {arg : Text} (harg : s.argument arg = .ok s')
    (hne : arg ≠ ['-', '-']) (args : List Text) :
    s.arguments (arg :: args) = s'.arguments args := by
  rw [arguments, if_neg hne, harg]
  rfl

theorem exists_arguments_awaited (hp : p.pending = .nothing) (h : setting.Says value choice)
    (hplain : IsPlain value) (hfree : p.has choice.switch = false) :
    ∃ s' : Progress, s'.ComesTo (p.choose choice) ∧ ∀ args,
      { p with pending := .setting setting none : Progress }.arguments (value :: args)
        = s'.arguments args := by
  refine ⟨_, comesTo_choose_of_pending hp h hfree, arguments_cons ?_ (hplain.ne _ _)⟩
  rw [argument_plain _ hplain]
  rfl

theorem exists_arguments_cluster {flags : List Flag} {letters : Text}
    (hletters : WritesLetters flags letters) (hs : s.ComesTo p)
    (hfree : p.Allows (flags.map .flag)) :
    ∃ s' : Progress, s'.ComesTo ((flags.map .flag).foldl choose p) ∧
      ∀ (rest : Text) (s'' : Progress), letters ++ rest ≠ [] → rest.head? ≠ some '-' →
        s'.short rest = .ok s'' →
        ∀ args, s.arguments (('-' :: (letters ++ rest)) :: args) = s''.arguments args := by
  rcases exists_short_append hletters hs hfree with ⟨s', hs', hshort⟩
  refine ⟨s', hs', fun rest s'' hne hrest hs'' => ?_⟩
  have hhyphen : (letters ++ rest).head? ≠ some '-' := by
    cases hletters with
    | nil => exact hrest
    | @cons flag c _ _ hletter _ =>
      rintro ⟨⟩
      cases flag <;> cases hletter
  apply arguments_cons
  · rw [argument_letters s hne hhyphen, hshort, hs'']
  · intro heq
    rw [(List.cons.inj heq).2] at hhyphen
    exact hhyphen rfl

theorem exists_arguments_lastLetter {flags : List Flag} {letters : Text}
    (hletters : WritesLetters flags letters) (hs : s.ComesTo p)
    (hfree : p.Allows (flags.map .flag)) :
    ∃ s' : Progress, s'.ComesTo ((flags.map .flag).foldl choose p) ∧
      ∀ (setting : Setting) (rest : Text) (s'' : Progress),
        s'.short (setting.letter :: rest) = .ok s'' → ∀ args,
        s.arguments (('-' :: (letters ++ setting.letter :: rest)) :: args) = s''.arguments args := by
  rcases exists_arguments_cluster hletters hs hfree with ⟨s', hs', hrest⟩
  refine ⟨s', hs', fun setting rest s'' => hrest _ _ ?_ ?_⟩
  · exact List.append_ne_nil_of_right_ne_nil _ (List.cons_ne_nil _ _)
  · rw [List.head?_cons]
    cases setting <;> decide

theorem exists_arguments_choices (h : WritesChoices choices args) (hs : s.ComesTo p)
    (hfree : p.Allows choices) :
    ∃ s' : Progress, s'.ComesTo (choices.foldl choose p) ∧
      ∀ args', s.arguments (args ++ args') = s'.arguments args' := by
  cases h with
  | flag flag =>
    refine ⟨_, hs.choose (.flag flag), arguments_cons ?_ ?_⟩
    · rw [argument_flag]
      exact raise_eq_ok hs (hfree.has_eq_false _ List.mem_cons_self)
    · cases flag <;> decide
  | @joined setting value choice h =>
    refine ⟨_, hs.choose choice, arguments_cons ?_ ?_⟩
    · rw [argument_joined]
      exact take_of_says hs h (hfree.has_eq_false _ List.mem_cons_self)
    · cases setting <;> exact fun heq => by cases heq
  | @detached setting value choice h hplain =>
    rcases exists_arguments_awaited hs.pending_eq h hplain
      (hfree.has_eq_false _ List.mem_cons_self) with ⟨s', hs', hawaited⟩
    refine ⟨s', hs', fun args' => ?_⟩
    rw [List.cons_append, List.singleton_append, ← hawaited]
    apply arguments_cons
    · rw [argument_setting, await_eq_ok hs]
    · cases setting <;> decide
  | cluster hletters hne =>
    rcases exists_arguments_cluster hletters hs hfree with ⟨s', hs', hrest⟩
    refine ⟨s', hs', fun args' => ?_⟩
    have := hrest [] s' (by rwa [List.append_nil]) (by decide) rfl args'
    rwa [List.append_nil] at this
  | @clusterAttached flags letters hletters setting value choice h hfront =>
    rcases exists_arguments_lastLetter hletters hs hfree.left with ⟨s', hs', hvalue⟩
    have hlast := hfree.right.has_eq_false _ List.mem_cons_self
    rw [List.foldl_append]
    refine ⟨_, hs'.choose choice, hvalue setting _ _ ?_⟩
    rw [short_attached s' setting h.ne_nil hfront]
    exact take_of_says hs' h hlast
  | @clusterJoined flags letters hletters setting value choice h =>
    rcases exists_arguments_lastLetter hletters hs hfree.left with ⟨s', hs', hvalue⟩
    have hlast := hfree.right.has_eq_false _ List.mem_cons_self
    rw [List.foldl_append]
    refine ⟨_, hs'.choose choice, hvalue setting _ _ ?_⟩
    rw [short_joined]
    exact take_of_says hs' h hlast
  | @clusterDetached flags letters hletters setting value choice h hplain =>
    rcases exists_arguments_lastLetter hletters hs hfree.left with ⟨s', hs', hvalue⟩
    have hlast := hfree.right.has_eq_false _ List.mem_cons_self
    rw [List.foldl_append]
    rcases exists_arguments_awaited hs'.pending_eq h hplain hlast with ⟨s'', hs'', hawaited⟩
    refine ⟨s'', hs'', fun args' => ?_⟩
    rw [List.cons_append, List.singleton_append, ← hawaited]
    apply hvalue
    rw [short_setting, await_eq_ok hs']

theorem exists_arguments_eq_ok (h : Writes parts args) (hs : s.ComesTo p)
    (hfree : p.Allows (parts.filterMap Part.choice?)) :
    ∃ s', s.arguments args = .ok s' ∧ s'.ComesTo (parts.foldl add p) := by
  -- The parts are taken in the groups in which they are written. What the groups so far have left
  -- to be looked at is hidden by `ComesTo`, so that each group is read alike wherever it stands.
  induction h generalizing s p with
  | nil => exact ⟨s, rfl, hs⟩
  | @choices choices parts args args' hchoices _ ih =>
    have hsplit : (choices.map Part.choice ++ parts).filterMap Part.choice?
        = choices ++ parts.filterMap Part.choice? := by
      rw [List.filterMap_append, List.filterMap_map]
      exact congrArg (· ++ _) List.filterMap_some
    rw [hsplit] at hfree
    rcases exists_arguments_choices hchoices hs hfree.left with ⟨s', hs', hargs⟩
    rw [hargs, List.foldl_append, List.foldl_map]
    exact ih hs' hfree.right
  | @target word parts args hplain hne _ ih =>
    rcases exists_target_eq_ok hs hne with ⟨s', htarget, hs'⟩
    have hword : s.argument word = .ok s' := by
      rw [argument_plain s hplain, word_eq_target hs, htarget]
    rw [arguments_cons hword (hplain.ne _ _)]
    exact ih hs' hfree.aim
  | @ended words hne =>
    -- From here on every word is a target, so that nothing is left to the induction.
    rw [arguments, if_pos rfl, List.foldl_map]
    exact exists_foldlM_target_eq_ok hs hne

end Progress

end ComponentTree.CommandLine
