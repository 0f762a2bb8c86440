import ComponentTree.Lists
import ComponentTree.Proofs.Source.Names

/-!
This module contains named imports as they may be written: items with blanks around them and with
aliases, between commas, in statements that have any other text around them. The names that are
written are the ones that are read, and the names that are read in any source can be written.
-/

namespace ComponentTree.Source

open Text

structure IsName (name : Name) : Prop where
  isTrimmed : IsTrimmed name
  comma : ',' ∉ name
  brace : '}' ∉ name
  noAlias : ∀ before after, name = before ++ after → ¬StartsAlias after

def EndsInAs (name : Name) : Prop :=
  ∃ before blank, isBlank blank = true ∧ name = before ++ blank :: "as".toList

structure IsAlias (text : Text) : Prop where
  notBlank : ∃ c ∈ text, isBlank c = false
  comma : ',' ∉ text
  brace : '}' ∉ text

inductive WritesItem : Option Name → Text → Prop
  | blank {item : Text} (h : ∀ c ∈ item, isBlank c = true) : WritesItem none item
  | plain {front name back : Text} (hfront : ∀ c ∈ front, isBlank c = true)
      (hback : ∀ c ∈ back, isBlank c = true) (hname : IsName name) :
      WritesItem (some name) (front ++ name ++ back)
  | aliased {front name blanks₁ blanks₂ other back : Text} (hfront : ∀ c ∈ front, isBlank c = true)
      (hback : ∀ c ∈ back, isBlank c = true) (hname : IsName name) (hlast : ¬EndsInAs name)
      (hblanks₁ : IsBlanks blanks₁) (hblanks₂ : IsBlanks blanks₂) (hother : IsAlias other) :
      WritesItem (some name)
        (front ++ (name ++ (blanks₁ ++ ("as".toList ++ (blanks₂ ++ other)))) ++ back)

inductive WritesStatement : List Name → Text → Prop
  | spelled {found : List (Option Name)} {items : List Text} {blanks₁ blanks₂ blanks₃ path : Text}
      {quote quote' : Char} (hitems : List.Forall₂ WritesItem found items)
      (hne : [','].intercalate items ≠ []) (hblanks₁ : IsBlanks blanks₁)
      (hblanks₂ : IsBlanks blanks₂) (hblanks₃ : IsBlanks blanks₃) (hquote : isQuote quote = true)
      (hquote' : isQuote quote' = true) (hpath : path ≠ [])
      (hquotes : ∀ c ∈ path, isQuote c = false) :
      WritesStatement found.reduceOption
        ("import".toList ++ (blanks₁ ++ '\x7b' :: ([','].intercalate items ++ '\x7d' :: (blanks₂ ++
          ("from".toList ++ (blanks₃ ++ quote :: (path ++ [quote'])))))))

/--
How a source is written, by the names of its statements. What stands before, between and after these
does not have the word `import` in it.
-/
inductive WritesSource : List Name → Text → Prop
  | rest {text : Text} (h : ¬"import".toList <:+: text) : WritesSource [] text
  | statement {before statement after : Text} {names names' : List Name}
      (hbefore : ¬"import".toList <:+: before) (h : WritesStatement names statement)
      (hafter : WritesSource names' after) :
      WritesSource (names ++ names') (before ++ (statement ++ after))

/-! ### Items -/

theorem StartsAlias.append {text : Text} (h : StartsAlias text) (rest : Text) :
    StartsAlias (text ++ rest) := by
  rcases h with ⟨blanks, blank, text, hblanks, hblank, rfl⟩
  refine ⟨blanks, blank, text ++ rest, hblanks, hblank, ?_⟩
  simp

theorem IsName.not_startsAlias_append {name suffix before after : Text} (h : IsName name)
    (hlast : ¬EndsInAs name) (hsuffix : ∀ c ∈ suffix.head?, isBlank c = true)
    (hname : name = before ++ after) (hne : after ≠ []) : ¬StartsAlias (after ++ suffix) := by
  have hnotblank : ¬∀ c ∈ after, isBlank c = true := by
    intro hall
    have hlast : name.getLast? = some (after.getLast hne) := by
      rw [hname, List.getLast?_append_of_ne_nil _ hne, List.getLast?_eq_some_getLast hne]
    have hend := h.isTrimmed.last _ hlast
    rw [hall _ (List.getLast_mem hne)] at hend
    cases hend
  rintro ⟨blanks, blank, rest, hblanks, hblank, heq⟩
  rcases List.append_eq_append_iff.1 heq with ⟨more, hmore, _⟩ | ⟨word, rfl, hword⟩
  · apply hnotblank
    intro c hc
    apply hblanks.2
    rw [hmore]
    exact List.mem_append_left _ hc
  · -- The name has some of the word `as` behind the blanks, or more.
    rcases word with _ | ⟨a, _ | ⟨b, _ | ⟨c, word⟩⟩⟩
    · apply hnotblank
      rw [List.append_nil]
      exact hblanks.2
    · obtain ⟨_, rfl⟩ : a = 'a' ∧ suffix = 's' :: blank :: rest := by simpa using hword.symm
      cases hsuffix 's' rfl
    · apply hlast
      rcases List.eq_nil_or_concat blanks with rfl | ⟨init, c, rfl⟩
      · exact absurd rfl hblanks.1
      · refine ⟨before ++ init, c, hblanks.2 c (by simp), ?_⟩
        simp only [String.reduceToList, List.cons_append, List.nil_append, List.cons.injEq] at hword
        rw [hname, ← hword.1, ← hword.2.1]
        simp
    · apply h.noAlias before _ hname
      simp only [String.reduceToList, List.cons_append, List.nil_append, List.cons.injEq] at hword
      rcases hword with ⟨rfl, rfl, rfl, _⟩
      exact ⟨blanks, blank, word, hblanks, hblank, rfl⟩

theorem WritesItem.standsFor {item : Text} {found : Option Name} (h : WritesItem found item) :
    StandsFor item found := by
  cases h with
  | blank h => exact .blank h
  | plain hfront hback hname => exact .plain hfront hback hname.isTrimmed hname.noAlias
  | @aliased front name blanks₁ blanks₂ other back hfront hback hname hlast hblanks₁ hblanks₂
      hother =>
    -- What trimming takes off at the end are the blanks behind the alias, too.
    rcases exists_isTrimmed hother.notBlank with ⟨before, core, after, hbefore, hcore, hafter, rfl⟩
    have hitem : front ++ (name ++ (blanks₁ ++ ("as".toList ++
          (blanks₂ ++ (before ++ core ++ after))))) ++ back
        = front ++ (name ++ (blanks₁ ++ ("as".toList ++ (blanks₂ ++ (before ++ core)))))
          ++ (after ++ back) := by simp
    rw [hitem]
    refine .aliased hfront ?_ ⟨?_, ?_, ?_⟩ ?_ ?_
    · intro c hc
      rcases List.mem_append.1 hc with hc | hc
      · exact hafter c hc
      · exact hback c hc
    · simp [hname.isTrimmed.ne_nil]
    · rw [List.head?_append_of_ne_nil _ hname.isTrimmed.ne_nil]
      exact hname.isTrimmed.head
    · have hend : ∀ text : Text, (text ++ core).getLast? = core.getLast? := by
        intro text
        exact List.getLast?_append_of_ne_nil _ hcore.ne_nil
      simp only [← List.append_assoc, hend]
      exact hcore.last
    · rcases blanks₂ with _ | ⟨blank, blanks₂⟩
      · exact absurd rfl hblanks₂.1
      · exact ⟨blanks₁, blank, blanks₂ ++ (before ++ core), hblanks₁,
          hblanks₂.2 blank List.mem_cons_self, rfl⟩
    · intro before' after' hsplit hne
      apply hname.not_startsAlias_append hlast _ hsplit hne
      rw [List.head?_append_of_ne_nil _ hblanks₁.1]
      intro c hc
      exact hblanks₁.2 c (List.mem_of_mem_head? hc)

theorem WritesItem.not_mem {item : Text} {found : Option Name} {c : Char}
    (h : WritesItem found item) (hc : c = ',' ∨ c = '\x7d') : c ∉ item := by
  have hblank : isBlank c = false := by rcases hc with rfl | rfl <;> rfl
  have hword : c ∉ "as".toList := by rcases hc with rfl | rfl <;> decide
  have hblanks {text : Text} (htext : ∀ c ∈ text, isBlank c = true) : c ∉ text := by
    intro hmem
    rw [htext c hmem] at hblank
    cases hblank
  have hname {name : Name} (hname : IsName name) : c ∉ name := by
    rcases hc with rfl | rfl
    · exact hname.comma
    · exact hname.brace
  have hother {text : Text} (htext : IsAlias text) : c ∉ text := by
    rcases hc with rfl | rfl
    · exact htext.comma
    · exact htext.brace
  cases h with
  | blank h => exact hblanks h
  | plain hfront hback h => simp [hblanks hfront, hblanks hback, hname h]
  | aliased hfront hback h _ hblanks₁ hblanks₂ halias =>
    simp only [List.mem_append, not_or]
    exact ⟨⟨hblanks hfront, hname h, hblanks hblanks₁.2, hword, hblanks hblanks₂.2,
      hother halias⟩, hblanks hback⟩

theorem forall_not_mem_of_writesItem {items : List Text} {found : List (Option Name)} {c : Char}
    (h : List.Forall₂ WritesItem found items) (hc : c = ',' ∨ c = '\x7d') :
    ∀ item ∈ items, c ∉ item := by
  induction h with
  | nil => simp
  | cons h _ ih => exact List.forall_mem_cons.2 ⟨h.not_mem hc, ih⟩

theorem StandsFor.isName {item : Text} {name : Name} (h : StandsFor item (some name))
    (hcomma : ',' ∉ item) (hbrace : '\x7d' ∉ item) : IsName name := by
  have hmem : ∀ c ∈ name, c ∈ item := by
    intro c hc
    cases h with
    | plain => simp [hc]
    | aliased => simp [hc]
  refine ⟨h.isTrimmed, fun hc => hcomma (hmem _ hc), fun hc => hbrace (hmem _ hc), ?_⟩
  cases h with
  | plain _ _ _ h => exact h
  | aliased _ _ _ _ hfirst =>
    intro before after hname halias
    cases after with
    | nil => exact not_startsAlias_nil halias
    | cons c after => exact hfirst before (c :: after) hname (by simp) (halias.append _)

theorem isName_iff {name : Name} :
    IsName name ↔ itemName? name = some name ∧ ',' ∉ name ∧ '\x7d' ∉ name := by
  constructor
  · intro h
    have hplain := WritesItem.plain (List.forall_mem_nil _) (List.forall_mem_nil _) h
    rw [List.nil_append, List.append_nil] at hplain
    exact ⟨hplain.standsFor.itemName?_eq, h.comma, h.brace⟩
  · rintro ⟨hname, hcomma, hbrace⟩
    exact (standsFor_iff.2 hname.symm).isName hcomma hbrace

instance : DecidablePred IsName :=
  fun _ => decidable_of_iff' _ isName_iff

/-! ### Statements -/

theorem WritesStatement.isStatement {statement : Text} {names : List Name}
    (h : WritesStatement names statement) :
    ∃ items, IsStatement items statement ∧ (items.splitOn ',').filterMap itemName? = names := by
  cases h with
  | @spelled found items blanks₁ blanks₂ blanks₃ path quote quote' hitems hne hblanks₁ hblanks₂
      hblanks₃ hquote hquote' hpath hquotes =>
    have hcomma := forall_not_mem_of_writesItem hitems (.inl rfl)
    have hbrace := forall_not_mem_of_writesItem hitems (.inr rfl)
    refine ⟨[','].intercalate items, .spelled hblanks₁ hne ?_ hblanks₂ hblanks₃ hquote hquote'
      hpath hquotes, ?_⟩
    · intro hmem
      rcases mem_or_exists_mem_of_mem_intercalate hmem with hsep | ⟨item, hitem, hmem⟩
      · simp at hsep
      · exact hbrace item hitem hmem
    · have hcons : items ≠ [] := by
        rintro rfl
        exact hne List.intercalate_nil
      have hfound : List.Forall₂ StandsFor items found :=
        hitems.flip.imp fun _ _ h => WritesItem.standsFor h
      rw [List.splitOn_intercalate ',' hcomma hcons, ← forall₂_standsFor_iff.1 hfound,
        List.reduceOption, List.filterMap_map]
      rfl

theorem StartsStatement.import_prefix {text : Text} (h : StartsStatement text) :
    "import".toList <+: text := by
  rcases h with ⟨items, statement, rest, ⟨⟩, rfl⟩
  rw [List.append_assoc]
  exact List.prefix_append _ _

theorem not_startsStatement_append {before front back statement rest : Text} {names : List Name}
    (hbefore : ¬"import".toList <:+: before) (h : WritesStatement names statement)
    (hsplit : before = front ++ back) (hne : back ≠ []) :
    ¬StartsStatement (back ++ (statement ++ rest)) := by
  intro hstarts
  have hword := hstarts.import_prefix
  have hletter : 'i' ∉ "mport".toList := by decide
  cases h
  rw [List.append_assoc] at hword
  apply hbefore
  rw [hsplit]
  exact (prefix_of_prefix_append hletter hne hword).isInfix.trans
    (List.suffix_append front back).isInfix

theorem importedNames_of_writesSource {names : List Name} {source : Text}
    (h : WritesSource names source) : importedNames source = names := by
  induction h with
  | @rest text h =>
    have hnone : Statements text [] := by
      apply Statements.nil
      intro front back htext hstarts
      apply h
      rw [htext]
      exact hstarts.import_prefix.isInfix.trans (List.suffix_append front back).isInfix
    rw [importedNames, hnone.itemLists_eq]
    rfl
  | statement hbefore h _ ih =>
    rcases h.isStatement with ⟨items, hstatement, hnames⟩
    rw [importedNames, itemLists_append (fun _ _ => not_startsStatement_append hbefore h),
      itemLists_statement_append hstatement, List.flatMap_cons, hnames]
    exact congrArg _ ih

theorem Statements.brace_not_mem {text items : Text} {lists : List Text}
    (h : Statements text lists) (hitems : items ∈ lists) : '\x7d' ∉ items := by
  induction h with
  | nil => cases hitems
  | cons h _ _ ih =>
    rcases List.mem_cons.1 hitems with rfl | hitems
    · cases h
      assumption
    · exact ih hitems

theorem isName_of_mem_importedNames {source : Text} {name : Name}
    (h : name ∈ importedNames source) : IsName name := by
  rw [importedNames, List.mem_flatMap] at h
  rcases h with ⟨items, hitems, h⟩
  rcases List.mem_filterMap.1 h with ⟨item, hitem, hname⟩
  have hbrace := (statements_itemLists source).brace_not_mem hitems
  apply (standsFor_iff.2 hname.symm).isName
  · intro hcomma
    exact (mem_and_ne_of_mem_splitOn hitem hcomma).2 rfl
  · intro hmem
    exact hbrace (mem_and_ne_of_mem_splitOn hitem hmem).1

/-! ### Writing names back -/

def writeImport (names : List Name) (path : Text) : Text :=
  "import \x7b ".toList ++ ([',', ' '].intercalate names ++ (" \x7d from '".toList ++
    (path ++ ['\x27'])))

theorem exists_writesItem (names : List Name) (h : ∀ name ∈ names, IsName name) :
    ∃ found items, List.Forall₂ WritesItem found items ∧ found.reduceOption = names ∧
      [','].intercalate items = ' ' :: ([',', ' '].intercalate names ++ [' ']) := by
  have hblank : ∀ c ∈ [' '], isBlank c = true := List.forall_mem_singleton.2 rfl
  induction names with
  | nil =>
    have hblank₂ : ∀ c ∈ [' ', ' '], isBlank c = true := List.forall_mem_cons.2 ⟨rfl, hblank⟩
    refine ⟨[none], _, .cons (.blank hblank₂) .nil, rfl, ?_⟩
    rw [List.intercalate_singleton, List.intercalate_nil, List.nil_append]
  | cons name names ih =>
    rw [List.forall_mem_cons] at h
    cases names with
    | nil =>
      refine ⟨[some name], _, .cons (.plain hblank hblank h.1) .nil, rfl, ?_⟩
      rw [List.intercalate_singleton, List.intercalate_singleton]
      rfl
    | cons name' names =>
      rcases ih h.2 with ⟨found, items, hitems, hfound, heq⟩
      have hne : items ≠ [] := by
        rintro rfl
        cases heq
      refine ⟨some name :: found, _, .cons (.plain hblank (List.forall_mem_nil _) h.1) hitems, ?_, ?_⟩
      · rw [List.reduceOption_cons_of_some, hfound]
      · rw [List.intercalate_cons_of_ne_nil hne, List.intercalate_cons_cons, heq]
        simp

theorem writesStatement_writeImport {names : List Name} {path : Text}
    (h : ∀ name ∈ names, IsName name) (hpath : path ≠ [])
    (hquotes : ∀ c ∈ path, isQuote c = false) :
    WritesStatement names (writeImport names path) := by
  rcases exists_writesItem names h with ⟨found, items, hitems, hfound, heq⟩
  have hblanks : IsBlanks [' '] := ⟨by simp, List.forall_mem_singleton.2 rfl⟩
  have hquote : isQuote '\x27' = true := rfl
  have hne : [','].intercalate items ≠ [] := by
    rw [heq]
    exact List.cons_ne_nil _ _
  have hstatement := WritesStatement.spelled hitems hne hblanks hblanks hblanks hquote hquote hpath
    hquotes
  rw [heq, hfound] at hstatement
  unfold writeImport
  simpa using hstatement

theorem importedNames_writeImport {names : List Name} {path : Text}
    (h : ∀ name ∈ names, IsName name) (hpath : path ≠ [])
    (hquotes : ∀ c ∈ path, isQuote c = false) : importedNames (writeImport names path) = names := by
  have hnone : ¬"import".toList <:+: ([] : Text) := by decide
  have hsource := WritesSource.statement hnone (writesStatement_writeImport h hpath hquotes)
    (.rest hnone)
  rw [List.append_nil, List.append_nil, List.nil_append] at hsource
  exact importedNames_of_writesSource hsource

theorem importedNames_written :
    (∀ names source, WritesSource names source → importedNames source = names) ∧
    ∀ source, (∀ name ∈ importedNames source, IsName name) ∧
      ∀ path, path ≠ [] → (∀ c ∈ path, isQuote c = false) →
        importedNames (writeImport (importedNames source) path) = importedNames source := by
  refine ⟨fun names source => importedNames_of_writesSource, fun source => ?_⟩
  have hnames : ∀ name ∈ importedNames source, IsName name :=
    fun name => isName_of_mem_importedNames
  exact ⟨hnames, fun path => importedNames_writeImport hnames⟩

def oddNames : List Name :=
  ["\x7ba".toList, "'b import \x7b".toList]

def oddSource : Text :=
  "imp".toList ++ ("import \x7b\x7ba as as,\n'b import \x7b\tas c, \x7d from 'm\x22".toList
    ++ "im".toList)

theorem importedNames_written_oddSource :
    WritesSource oddNames oddSource ∧ importedNames oddSource = oddNames ∧
      importedNames (writeImport oddNames ['m']) = oddNames := by
  have hblank : IsBlanks [' '] := ⟨by simp, List.forall_mem_singleton.2 rfl⟩
  have htab : IsBlanks ['\t'] := ⟨by simp, List.forall_mem_singleton.2 rfl⟩
  have hline : ∀ c ∈ ['\n'], isBlank c = true := List.forall_mem_singleton.2 rfl
  have hnil : ∀ c ∈ ([] : Text), isBlank c = true := by simp
  have hlast {name : Name} (h : name.getLast? ≠ some 's') : ¬EndsInAs name := by
    rintro ⟨before, blank, _, rfl⟩
    simp at h
  have hname₁ : IsName "\x7ba".toList := by decide +kernel
  have hname₂ : IsName "'b import \x7b".toList := by decide +kernel
  have halias₁ : IsAlias "as".toList := ⟨⟨'a', by decide⟩, by decide, by decide⟩
  have halias₂ : IsAlias ['c'] := ⟨⟨'c', by decide⟩, by decide, by decide⟩
  have hitem₁ := WritesItem.aliased hnil hnil hname₁ (hlast (by decide)) hblank hblank halias₁
  have hitem₂ := WritesItem.aliased hline hnil hname₂ (hlast (by decide)) htab hblank halias₂
  have hitems := List.Forall₂.cons hitem₁ (.cons hitem₂ (.cons (.blank hblank.2) .nil))
  have hquote₁ : isQuote '\x27' = true := rfl
  have hquote₂ : isQuote '\x22' = true := rfl
  have hpath : ∀ c ∈ ['m'], isQuote c = false := List.forall_mem_singleton.2 rfl
  have hstatement := WritesStatement.spelled hitems (by decide) hblank hblank hblank hquote₁
    hquote₂ (by decide) hpath
  have hsource : WritesSource oddNames oddSource :=
    .statement (by decide) hstatement (.rest (by decide))
  have hnames : importedNames oddSource = oddNames := importedNames_written.1 _ _ hsource
  have hback := (importedNames_written.2 oddSource).2 ['m'] (by decide) hpath
  rw [hnames] at hback
  exact ⟨hsource, hnames, hback⟩

end ComponentTree.Source
