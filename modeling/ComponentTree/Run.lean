import ComponentTree.CommandLine
import ComponentTree.CommandLine.Help
import ComponentTree.Config
import ComponentTree.Log
import ComponentTree.Render
import ComponentTree.Report
import ComponentTree.Tree

/-!
This module contains the run of the command on the files of a disk: configuration, settings, search,
graph and printed trees, with what is told on the way. The settings are what the command line says,
else what the configuration says, else the defaults.
-/

namespace ComponentTree

structure Settings where
  targets : List Path
  root : Path
  output : OutputFormat
  scan : ScanOptions
  limit : DepthLimit
  limit_ne_zero : limit.levels? ≠ some 0
deriving DecidableEq

namespace Settings

def make (targets : List Path) (root : Path) (output : OutputFormat) (scan : ScanOptions)
    (depth? : Option Nat) : Except Failure Settings :=
  if h : depth? = some 0 then throw (.depthInvalid 0)
  else return { targets, root, output, scan, limit := ⟨depth?⟩, limit_ne_zero := h }

def ofCommandLine (line : CommandLine) (config : Config) (workingDirectory : Path) :
    Except Failure Settings :=
  let scan := config.scanOptions
  make line.targets
    ((line.root? <|> config.root?).getD workingDirectory)
    ((line.output? <|> config.output?).getD .ascii)
    { scan with sorted := scan.sorted || line.sorted }
    (line.depth? <|> config.depth?)

end Settings

structure Told (ε α : Type) where
  log : List LogEntry
  result : Except ε α

namespace Told

def andThen (t : Told ε α) (next : α → Told ε β) : Told ε β :=
  match t.result with
  | .error e => ⟨t.log, .error e⟩
  | .ok a =>
    let t' := next a
    ⟨t.log ++ t'.log, t'.result⟩

def silent (result : Except ε α) : Told ε α := ⟨[], result⟩

end Told

def Disk.loadConfig (disk : Disk) (p : Path) : Told CauseChain Config :=
  match disk.text p with
  | .error .notFound => .silent (.error (.ofCause (.failure (.configMissing p.shown))))
  | .error fault =>
    let chain := CauseChain.ofCause (.fault fault.kind fault.message)
    .silent (.error (chain.wrap (.note ("Failed to read config file: " ++ p.shown))))
  | .ok document =>
    match Config.ofText document with
    | .error invalid => .silent (.error (.ofCause (.failure (invalid.failure p document))))
    | .ok config =>
      let base := p.parent?.getD ⟨[]⟩
      let config := { config with root? := config.root?.map base.join }
      ⟨[⟨.debug, "Loaded config from " ++ p.shown ++ ": " ++ config.shown⟩], .ok config⟩

def Disk.generate (disk : Disk) (settings : Settings) : Told Failure Text :=
  match disk.scan settings.root settings.scan with
  | .error failure => .silent (.error failure)
  | .ok scan =>
    let (roots, progress) :=
      Build.addEntries scan.candidates disk.loader .start settings.targets
    let built : LogEntry :=
      ⟨.info, "Built graph with " ++ toString progress.graph.size ++ " nodes from "
        ++ toString roots.length ++ " targets, rendering as " ++ settings.output.name⟩
    let rendered : List LogEntry :=
      if settings.output = .html then
        [⟨.debug, "Rendered HTML document with " ++ toString roots.length ++ " roots"⟩]
      else []
    ⟨scan.told ++ progress.events.toList.map Build.Event.told ++ built :: rendered,
      .ok (progress.graph.render settings.output settings.limit roots)⟩

def Disk.execute (disk : Disk) (line : CommandLine) : Told CauseChain Text :=
  let start : Told CauseChain Config :=
    match line.config? with
    | some p => disk.loadConfig p
    | none => .silent (.ok {})
  let ofFailure (f : Failure) : CauseChain := .ofCause (.failure f)
  let level := LogLevel.ofVerbosity line.verbosity
  let told : Told CauseChain Unit := ⟨[⟨.debug, "Log level: " ++ level.name⟩], .ok ()⟩
  told.andThen fun _ => start.andThen fun config =>
    match Settings.ofCommandLine line config disk.workingDirectory with
    | .error failure => .silent (.error (ofFailure failure))
    | .ok settings =>
      let t := disk.generate settings
      ⟨t.log, t.result.mapError ofFailure⟩

structure Environment where
  logLevel? : Option String := none
  forceColour? : Option String := none

namespace Environment

/--
The filter of the log, where the environment goes before the command line. Of the environment's
setting only the name of one level for the whole program is read; an empty setting is the level
`error`, and any other word shows nothing. Levels given by number, lists of directives, and
directives for a part of the program, a span or a field are left out.
-/
def filter (env : Environment) (verbosity : Verbosity) : LogFilter :=
  match env.logLevel? with
  | some name =>
    if name = "" then ⟨some .error⟩ else ⟨LogLevel.all.find? (·.name = name.map Char.toLower)⟩
  | none => ⟨some (.ofVerbosity verbosity)⟩

def style (env : Environment) : Report.Style :=
  if env.forceColour?.any (· ≠ "0") then .coloured else .plain

end Environment

structure Outcome where
  code : Nat
  output : Text
  messages : String

def CommandLine.Stop.outcome : CommandLine.Stop → Outcome
  | refused refusal => ⟨2, [], refusal.message .stream ++ "\n"⟩
  | help true => ⟨0, longHelp.toList, ""⟩
  | help false => ⟨0, shortHelp.toList, ""⟩
  | version => ⟨0, versionText.toList, ""⟩

def Disk.run (disk : Disk) (env : Environment) (args : List Text) : Outcome :=
  match CommandLine.ofArguments args with
  | .error stop => stop.outcome
  | .ok line =>
    let told := disk.execute line
    let shown := told.log.filter (env.filter line.verbosity).shows
    let messages := String.join (shown.map fun entry => entry.line ++ "\n")
    match told.result with
    | .ok output => ⟨0, output, messages⟩
    | .error chain => ⟨1, [], messages ++ (Report.ofChain chain).terminalText env.style⟩

end ComponentTree
