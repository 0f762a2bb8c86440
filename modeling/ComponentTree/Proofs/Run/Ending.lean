import ComponentTree.Run
import ComponentTree.Proofs.Build.Closure
import ComponentTree.Proofs.Config.Written
import ComponentTree.Proofs.FileTree.Canonical
import ComponentTree.Proofs.Scan.Sorted

/-!
This module contains how a run ends on a tree of files. There are three things that can hinder it,
which are looked at one after the other: the configuration file, the number of levels and the
directory that is searched. The first one is reported, and nothing is printed. A run that is not
hindered prints the trees of all targets, whatever the sources hold.
-/

namespace ComponentTree

namespace CommandLine

variable (line : CommandLine) (config : Config)

def levels? : Option Nat :=
  line.depth?.or config.depth?

def format : OutputFormat :=
  (line.output?.or config.output?).getD .ascii

def searched (workingDirectory : Path) : Path :=
  (line.root?.or config.root?).getD workingDirectory

def searchOptions : ScanOptions :=
  { config.scanOptions with sorted := config.scanOptions.sorted || line.sorted }

end CommandLine

namespace FileSystem

variable (fs : FileSystem) (line : CommandLine)

inductive Presets : Config → Prop
  | none (h : line.config? = none) : Presets {}
  | file {p : Path} {document : Text} {config : Config} (hp : line.config? = some p)
      (htext : fs.disk.text p = .ok document) (hconfig : Config.ofText document = .ok config) :
      Presets { config with
        root? := config.root?.map fun root =>
          if root.isAbsolute then root else (p.parent?.getD ⟨[]⟩).join root }

def searched (config : Config) : Path :=
  line.searched config (.ofNames fs.workingDirectory)

/-- What hinders a run, with the report of it. Each cause comes after those in front of it. -/
inductive Hindered : Report → Prop
  | configMissing {p : Path} (hp : line.config? = some p)
      (htext : fs.disk.text p = .error .notFound) :
      Hindered (.ofFailure (.configMissing p.shown))
  | configUnreadable {p : Path} {fault : Fault} (hp : line.config? = some p)
      (htext : fs.disk.text p = .error fault) (hfault : fault ≠ .notFound) :
      Hindered (.ofChain ⟨.note ("Failed to read config file: " ++ p.shown),
        [.fault fault.kind fault.message]⟩)
  | configInvalid {p : Path} {document : Text} {invalid : Config.Invalid}
      (hp : line.config? = some p) (htext : fs.disk.text p = .ok document)
      (hconfig : Config.ofText document = .error invalid) :
      Hindered (.ofFailure (invalid.failure p document))
  | noLevels {config : Config} (hconfig : fs.Presets line config)
      (hlevels : line.levels? config = some 0) :
      Hindered (.ofFailure (.depthInvalid 0))
  | rootUnreachable {config : Config} {fault : Fault} (hconfig : fs.Presets line config)
      (hlevels : line.levels? config ≠ some 0)
      (hroot : fs.locate (fs.searched line config) = .error fault) :
      Hindered (.ofFailure (.rootUnreadable
        (String.ofList (fs.searched line config).display) fault.message))
  | rootNoDirectory {config : Config} {names : List Bytes} (hconfig : fs.Presets line config)
      (hlevels : line.levels? config ≠ some 0)
      (hroot : fs.locate (fs.searched line config) = .ok names)
      (hfile : ∀ entries, fs.top.at? names ≠ some (.directory entries)) :
      Hindered (.ofFailure (.rootUnreadable
        (String.ofList (Path.ofNames names).display) "not a directory"))

structure Finds (config : Config) (names : List Bytes) (entries : List (Bytes × FileTree)) :
    Prop where
  presets : fs.Presets line config
  levels : line.levels? config ≠ some 0
  located : fs.locate (fs.searched line config) = .ok names
  directory : fs.top.at? names = some (.directory entries)

def candidatesIn (options : ScanOptions) (names : List Bytes) (entries : List (Bytes × FileTree)) :
    CandidateSet :=
  .ofList options.extension
    ((Scan.eventsIn options (.ofNames names) (.directory entries)).filterMap Scan.Event.found?)

def printed (config : Config) (names : List Bytes) (entries : List (Bytes × FileTree)) : Text :=
  let candidates := candidatesIn (line.searchOptions config) names entries
  let graph := (Build.addEntries candidates fs.disk.loader .start line.targets).2.graph
  graph.render (line.format config) ⟨line.levels? config⟩
    (line.targets.map (Build.shownAs fs.disk.loader))

end FileSystem

/-! ### Parts of a run -/

theorem Told.result_andThen_of_ok {ε α β : Type} {t : Told ε α} {a : α} (h : t.result = .ok a)
    (next : α → Told ε β) : (t.andThen next).result = (next a).result := by
  rw [Told.andThen, h]

theorem Told.result_andThen_of_error {ε α β : Type} {t : Told ε α} {e : ε}
    (h : t.result = .error e) (next : α → Told ε β) : (t.andThen next).result = .error e := by
  rw [Told.andThen, h]

namespace Disk

variable {disk : Disk} {line : CommandLine} {config : Config} {chain : CauseChain}

def preset (disk : Disk) (line : CommandLine) : Told CauseChain Config :=
  match line.config? with
  | some p => disk.loadConfig p
  | none => .silent (.ok {})

def errorOf (failure : Failure) : CauseChain :=
  .ofCause (.failure failure)

def afterPreset (disk : Disk) (line : CommandLine) (config : Config) : Told CauseChain Text :=
  match Settings.ofCommandLine line config disk.workingDirectory with
  | .error failure => .silent (.error (errorOf failure))
  | .ok settings => ⟨(disk.generate settings).log, (disk.generate settings).result.mapError errorOf⟩

theorem execute_eq (disk : Disk) (line : CommandLine) :
    disk.execute line
      = Told.andThen
          ⟨[⟨.debug, "Log level: " ++ (LogLevel.ofVerbosity line.verbosity).name⟩], .ok ()⟩
          fun _ => (disk.preset line).andThen (disk.afterPreset line) :=
  rfl

theorem result_generate_of_error {settings : Settings} {failure : Failure}
    (h : disk.scan settings.root settings.scan = .error failure) :
    (disk.generate settings).result = .error failure := by
  rw [generate, h]
  rfl

theorem result_generate_of_ok {settings : Settings} {scan : Scan}
    (h : disk.scan settings.root settings.scan = .ok scan) :
    (disk.generate settings).result
      = .ok ((Build.addEntries scan.candidates disk.loader .start settings.targets).2.graph.render
          settings.output settings.limit (settings.targets.map (Build.shownAs disk.loader))) := by
  have hroots : (Build.addEntries scan.candidates disk.loader .start settings.targets).1
      = settings.targets.map (Build.shownAs disk.loader) := Build.addEntries_fst _ _
  rw [generate, h, ← hroots]

theorem result_execute_of_error (h : (disk.preset line).result = .error chain) :
    (disk.execute line).result = .error chain := by
  rw [execute_eq, Told.result_andThen_of_ok rfl, Told.result_andThen_of_error h]

theorem result_execute_of_ok (h : (disk.preset line).result = .ok config) :
    (disk.execute line).result = (disk.afterPreset line config).result := by
  rw [execute_eq, Told.result_andThen_of_ok rfl, Told.result_andThen_of_ok h]

end Disk

namespace Settings

theorem ofCommandLine_eq (line : CommandLine) (config : Config) (workingDirectory : Path) :
    ofCommandLine line config workingDirectory
      = make line.targets (line.searched config workingDirectory) (line.format config)
          (line.searchOptions config) (line.levels? config) := by
  rcases line with ⟨targets, root?, output?, depth?, sorted, config?, verbosity⟩
  cases root? <;> cases output? <;> cases depth? <;> rfl

end Settings

namespace FileSystem

variable {fs : FileSystem} {line : CommandLine} {config : Config} {names : List Bytes}
  {entries : List (Bytes × FileTree)} {report : Report}

/-! ### The configuration -/

theorem join_eq (base root : Path) :
    base.join root = if root.isAbsolute then root else base.join root := by
  split
  next h => rw [Path.join, if_pos h]
  next => rfl

theorem Presets.result_preset (h : fs.Presets line config) :
    (fs.disk.preset line).result = .ok config := by
  cases h with
  | none h =>
    rw [Disk.preset, h]
    rfl
  | @file p document config hp htext hconfig =>
    have hroot : config.root?.map (p.parent?.getD ⟨[]⟩).join
        = config.root?.map fun root =>
          if root.isAbsolute then root else (p.parent?.getD ⟨[]⟩).join root := by
      congr 1
      funext root
      exact join_eq _ root
    rw [Disk.preset, hp]
    dsimp only
    rw [Disk.loadConfig, htext]
    dsimp only
    rw [hconfig]
    dsimp only
    rw [hroot]

theorem result_preset_of_fault {p : Path} {fault : Fault} (hp : line.config? = some p)
    (htext : fs.disk.text p = .error fault) (hfault : fault ≠ .notFound) :
    (fs.disk.preset line).result = .error ⟨.note ("Failed to read config file: " ++ p.shown),
      [.fault fault.kind fault.message]⟩ := by
  rw [Disk.preset, hp]
  dsimp only
  rw [Disk.loadConfig, htext]
  cases fault with
  | notFound => contradiction
  | _ => rfl

theorem result_preset_of_missing {p : Path} (hp : line.config? = some p)
    (htext : fs.disk.text p = .error .notFound) :
    (fs.disk.preset line).result = .error (Disk.errorOf (.configMissing p.shown)) := by
  rw [Disk.preset, hp]
  dsimp only
  rw [Disk.loadConfig, htext]
  rfl

theorem result_preset_of_invalid {p : Path} {document : Text} {invalid : Config.Invalid}
    (hp : line.config? = some p) (htext : fs.disk.text p = .ok document)
    (hconfig : Config.ofText document = .error invalid) :
    (fs.disk.preset line).result = .error (Disk.errorOf (invalid.failure p document)) := by
  rw [Disk.preset, hp]
  dsimp only
  rw [Disk.loadConfig, htext]
  dsimp only
  rw [hconfig]
  rfl

theorem exists_hindered_or_presets (fs : FileSystem) (line : CommandLine) :
    (∃ report, fs.Hindered line report) ∨ ∃ config, fs.Presets line config := by
  cases hp : line.config? with
  | none => exact .inr ⟨{}, .none hp⟩
  | some p =>
    cases htext : fs.disk.text p with
    | error fault =>
      by_cases hfault : fault = .notFound
      · subst hfault
        exact .inl ⟨_, .configMissing hp htext⟩
      · exact .inl ⟨_, .configUnreadable hp htext hfault⟩
    | ok document =>
      cases hconfig : Config.ofText document with
      | error invalid => exact .inl ⟨_, .configInvalid hp htext hconfig⟩
      | ok config => exact .inr ⟨_, .file hp htext hconfig⟩

/-! ### The search -/

theorem canonical_disk {p : Path} (h : fs.locate p = .ok names) :
    fs.disk.canonical p = .ok (.ofNames names) := by
  change (fs.locate p).map Path.ofNames = _
  rw [h]
  rfl

theorem canonical_disk_of_fault {p : Path} {fault : Fault} (h : fs.locate p = .error fault) :
    fs.disk.canonical p = .error fault := by
  change (fs.locate p).map Path.ofNames = _
  rw [h]
  rfl

theorem scan_of_fault {root : Path} {fault : Fault} (hroot : fs.locate root = .error fault)
    (options : ScanOptions) :
    fs.disk.scan root options
      = .error (.rootUnreadable (String.ofList root.display) fault.message) := by
  rw [Disk.scan, canonical_disk_of_fault hroot]

theorem directory?_of_locate (hsound : fs.top.Sound) {root : Path}
    (hroot : fs.locate root = .ok names) :
    fs.disk.directory? (.ofNames names) = (fs.top.at? names).filter FileTree.isDirectory := by
  have hcanonical : fs.canonical root = .ok (.ofNames names) := canonical_disk hroot
  rcases exists_of_canonical hcanonical with ⟨names', hnames', _, hholds, hdirectory⟩
  obtain rfl : names = names' := Except.ok.inj (hroot.symm.trans hnames')
  change fs.directory? (.ofNames names) = _
  rw [directory?, locate_ofNames hsound hdirectory hholds]

theorem scan_of_file (hsound : fs.top.Sound) {root : Path} (hroot : fs.locate root = .ok names)
    (hfile : ∀ entries, fs.top.at? names ≠ some (.directory entries)) (options : ScanOptions) :
    fs.disk.scan root options
      = .error
          (.rootUnreadable (String.ofList (Path.ofNames names).display) "not a directory") := by
  have hdirectory : fs.disk.directory? (.ofNames names) = none := by
    rw [directory?_of_locate hsound hroot, Option.filter_eq_none_iff]
    intro t ht
    cases t with
    | directory entries => exact absurd ht (hfile entries)
    | file _ => exact Bool.false_ne_true
    | link _ => exact Bool.false_ne_true
  rw [Disk.scan, canonical_disk hroot]
  dsimp only
  rw [hdirectory]

theorem scan_of_directory (hsound : fs.top.Sound) {root : Path}
    (hroot : fs.locate root = .ok names) (hentries : fs.top.at? names = some (.directory entries))
    (options : ScanOptions) :
    fs.disk.scan root options = .ok ⟨.ofNames names, options,
      Scan.eventsIn options (.ofNames names) (.directory entries)⟩ := by
  have hdirectory : fs.disk.directory? (.ofNames names) = some (.directory entries) := by
    rw [directory?_of_locate hsound hroot, hentries]
    rfl
  exact scan_eq options (canonical_disk hroot) hdirectory

/-! ### What follows the configuration -/

theorem result_afterPreset_of_levels (h : line.levels? config = some 0) :
    (fs.disk.afterPreset line config).result = .error (Disk.errorOf (.depthInvalid 0)) := by
  rw [Disk.afterPreset, Settings.ofCommandLine_eq, Settings.make, dif_pos h]
  rfl

theorem result_afterPreset_of_scan_error {failure : Failure} (h : line.levels? config ≠ some 0)
    (hscan : fs.disk.scan (fs.searched line config) (line.searchOptions config)
      = .error failure) :
    (fs.disk.afterPreset line config).result = .error (Disk.errorOf failure) := by
  rw [Disk.afterPreset, Settings.ofCommandLine_eq, Settings.make, dif_neg h]
  change ((Disk.generate fs.disk _).result).mapError Disk.errorOf = _
  rw [Disk.result_generate_of_error hscan]
  rfl

theorem result_afterPreset_of_scan_ok {scan : Scan} (h : line.levels? config ≠ some 0)
    (hscan : fs.disk.scan (fs.searched line config) (line.searchOptions config) = .ok scan) :
    (fs.disk.afterPreset line config).result
      = .ok ((Build.addEntries scan.candidates fs.disk.loader .start
          line.targets).2.graph.render (line.format config) ⟨line.levels? config⟩
          (line.targets.map (Build.shownAs fs.disk.loader))) := by
  rw [Disk.afterPreset, Settings.ofCommandLine_eq, Settings.make, dif_neg h]
  change ((Disk.generate fs.disk _).result).mapError Disk.errorOf = _
  rw [Disk.result_generate_of_ok hscan]
  rfl

/-! ### How a run ends -/

theorem Hindered.result_execute (hsound : fs.top.Sound) (h : fs.Hindered line report) :
    ∃ chain, (fs.disk.execute line).result = .error chain ∧ Report.ofChain chain = report := by
  cases h with
  | configMissing hp htext =>
    exact ⟨_, Disk.result_execute_of_error (result_preset_of_missing hp htext), rfl⟩
  | configUnreadable hp htext hfault =>
    exact ⟨_, Disk.result_execute_of_error (result_preset_of_fault hp htext hfault), rfl⟩
  | configInvalid hp htext hconfig =>
    exact ⟨_, Disk.result_execute_of_error (result_preset_of_invalid hp htext hconfig), rfl⟩
  | noLevels hconfig hlevels =>
    rw [Disk.result_execute_of_ok hconfig.result_preset, result_afterPreset_of_levels hlevels]
    exact ⟨_, rfl, rfl⟩
  | rootUnreachable hconfig hlevels hroot =>
    rw [Disk.result_execute_of_ok hconfig.result_preset,
      result_afterPreset_of_scan_error hlevels (scan_of_fault hroot _)]
    exact ⟨_, rfl, rfl⟩
  | rootNoDirectory hconfig hlevels hroot hfile =>
    rw [Disk.result_execute_of_ok hconfig.result_preset,
      result_afterPreset_of_scan_error hlevels (scan_of_file hsound hroot hfile _)]
    exact ⟨_, rfl, rfl⟩

theorem Finds.result_execute (hsound : fs.top.Sound) (h : fs.Finds line config names entries) :
    (fs.disk.execute line).result = .ok (fs.printed line config names entries) := by
  rw [Disk.result_execute_of_ok h.presets.result_preset, result_afterPreset_of_scan_ok h.levels
    (scan_of_directory hsound h.located h.directory _)]
  rfl

theorem exists_hindered_or_finds (fs : FileSystem) (line : CommandLine) :
    (∃ report, fs.Hindered line report) ∨
      ∃ config names entries, fs.Finds line config names entries := by
  rcases exists_hindered_or_presets fs line with hindered | ⟨config, hconfig⟩
  · exact .inl hindered
  · by_cases hlevels : line.levels? config = some 0
    · exact .inl ⟨_, .noLevels hconfig hlevels⟩
    · cases hroot : fs.locate (fs.searched line config) with
      | error fault => exact .inl ⟨_, .rootUnreachable hconfig hlevels hroot⟩
      | ok names =>
        by_cases hdirectory : ∃ entries, fs.top.at? names = some (.directory entries)
        · rcases hdirectory with ⟨entries, hentries⟩
          exact .inr ⟨config, names, entries, hconfig, hlevels, hroot, hentries⟩
        · rw [not_exists] at hdirectory
          exact .inl ⟨_, .rootNoDirectory hconfig hlevels hroot hdirectory⟩

theorem Finds.not_hindered (hsound : fs.top.Sound) (h : fs.Finds line config names entries) :
    ¬∃ report, fs.Hindered line report := by
  -- Both tell the result of the one run.
  rintro ⟨report, hhindered⟩
  rcases hhindered.result_execute hsound with ⟨chain, hresult, _⟩
  rw [h.result_execute hsound] at hresult
  cases hresult

section Run

variable {args : List Text} (hargs : CommandLine.ofArguments args = .ok line)
  (hsound : fs.top.Sound) (env : Environment)

include hargs hsound

theorem Hindered.run (h : fs.Hindered line report) :
    (fs.disk.run env args).code = 1 ∧ (fs.disk.run env args).output = [] ∧
      ∃ told : List LogEntry, (fs.disk.run env args).messages
        = String.join (told.map fun entry => entry.line ++ "\n")
          ++ report.terminalText env.style := by
  rcases h.result_execute hsound with ⟨chain, hresult, rfl⟩
  rw [Disk.run, hargs]
  dsimp only
  rw [hresult]
  exact ⟨rfl, rfl, _, rfl⟩

theorem Finds.run (h : fs.Finds line config names entries) :
    (fs.disk.run env args).code = 0 ∧
      (fs.disk.run env args).output = fs.printed line config names entries := by
  rw [Disk.run, hargs]
  dsimp only
  rw [h.result_execute hsound]
  exact ⟨rfl, rfl⟩

theorem run_ending :
    ((fs.disk.run env args).code = 1 ↔ ∃ report, fs.Hindered line report) ∧
    (∀ report, fs.Hindered line report →
      (fs.disk.run env args).output = [] ∧
      ∃ told : List LogEntry, (fs.disk.run env args).messages
        = String.join (told.map fun entry => entry.line ++ "\n")
          ++ report.terminalText env.style) ∧
    ((¬∃ report, fs.Hindered line report) →
      (fs.disk.run env args).code = 0 ∧
      ∃ config names entries, fs.Finds line config names entries ∧
        (fs.disk.run env args).output = fs.printed line config names entries) := by
  refine ⟨⟨?_, ?_⟩, fun report h => (h.run hargs hsound env).2, ?_⟩
  · intro hcode
    rcases exists_hindered_or_finds fs line with hindered | ⟨config, names, entries, h⟩
    · exact hindered
    · rw [(h.run hargs hsound env).1] at hcode
      cases hcode
  · rintro ⟨report, h⟩
    exact (h.run hargs hsound env).1
  · intro hnone
    rcases exists_hindered_or_finds fs line with hindered | ⟨config, names, entries, h⟩
    · exact absurd hindered hnone
    · have hrun := h.run hargs hsound env
      exact ⟨hrun.1, config, names, entries, h, hrun.2⟩

end Run

def presetDocument : Text :=
  Text.unlines ["depth = 0".toList, "root = \x22x\x22".toList]

def presetFiles : FileSystem where
  top := .directory [([0x41], .file [0xFF]), ([0x67], .file (Text.Utf8.encode presetDocument))]
  workingDirectory := []

theorem sound_presetFiles : presetFiles.top.Sound := by
  apply FileTree.Sound.directory (by decide) (by decide)
  rw [List.forall_mem_cons, List.forall_mem_singleton]
  exact ⟨.of_not_isDirectory rfl, .of_not_isDirectory rfl⟩

theorem ofText_presetDocument :
    Config.ofText presetDocument
      = .ok { depth? := some 0, root? := some (.ofText "x".toList) } := by
  let settings : List Config.Setting := [.depth 0, .root "x".toList]
  have hlines : List.Forall₂ (fun s line => Toml.WritesLine s.entry line) settings
      (settings.map Config.Setting.line) := by
    rw [List.forall₂_map_right_iff, List.forall₂_same]
    exact fun setting _ => Config.writesLine_line setting
  have hbounded : ∀ setting ∈ settings, setting.IsBounded := by
    simp [settings, Config.Setting.IsBounded]
  exact Config.ofText_unlines_of_perm hlines (.refl _) hbounded (by decide)

def presetLine : CommandLine where
  targets := [.ofText "A".toList]
  config? := some (.ofText "g".toList)

def flaggedLine : CommandLine :=
  { presetLine with depth? := some 1, root? := some (.ofText "/".toList) }

theorem run_ending_presetFiles :
    let args := ["A".toList, "-c".toList, "g".toList]
    let flags := ["-d".toList, "1".toList, "-r".toList, "/".toList]
    presetFiles.top.Sound
      ∧ CommandLine.ofArguments args = .ok presetLine
      ∧ (presetFiles.disk.run {} args).code = 1
      ∧ (presetFiles.disk.run {} args).output = []
      ∧ CommandLine.ofArguments (args ++ flags) = .ok flaggedLine
      ∧ (presetFiles.disk.run {} (args ++ flags)).code = 0 := by
  intro args flags
  have hargs : CommandLine.ofArguments args = .ok presetLine := by decide +kernel
  have hflags : CommandLine.ofArguments (args ++ flags) = .ok flaggedLine := by decide +kernel
  have hlocation : presetFiles.locate (.ofText "g".toList) = .ok [[0x67]] := by
    cbv
  have hcontent : presetFiles.content (.ofText "g".toList)
      = .ok (Text.Utf8.encode presetDocument) := by
    rw [content, hlocation]
    rfl
  have htext : presetFiles.disk.text (.ofText "g".toList) = .ok presetDocument :=
    text_disk hcontent (by decide +kernel)
  have hroot : presetFiles.locate (.ofText "/".toList) = .ok [] := by
    cbv
  have hhindered : presetFiles.Hindered presetLine (.ofFailure (.depthInvalid 0)) :=
    .noLevels (.file rfl htext ofText_presetDocument) rfl
  have hfinds : ∃ config, presetFiles.Finds flaggedLine config [] presetFiles.top.entries :=
    ⟨_, .file rfl htext ofText_presetDocument, by decide, hroot, rfl⟩
  rcases hfinds with ⟨config, hfinds⟩
  rcases run_ending hargs sound_presetFiles {} with ⟨hcode, houtput, _⟩
  rcases run_ending hflags sound_presetFiles {} with ⟨_, _, hunhindered⟩
  exact ⟨sound_presetFiles, hargs, hcode.2 ⟨_, hhindered⟩, (houtput _ hhindered).1, hflags,
    (hunhindered (hfinds.not_hindered sound_presetFiles)).1⟩

end FileSystem

end ComponentTree
