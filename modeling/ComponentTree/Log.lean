import ComponentTree.Build
import ComponentTree.CommandLine
import ComponentTree.Config
import ComponentTree.Scan
import ComponentTree.Text.Control

/-!
This module contains the log of a run: entries of different weight, of which only those are shown
that are heavy enough, and what is told of the events of a run.
-/

namespace ComponentTree

inductive LogLevel where
  | error
  | warn
  | info
  | debug
  | trace
deriving DecidableEq, Repr

namespace LogLevel

def name : LogLevel → String
  | error => "error"
  | warn => "warn"
  | info => "info"
  | debug => "debug"
  | trace => "trace"

def all : List LogLevel := [error, warn, info, debug, trace]

def ofVerbosity : Verbosity → LogLevel
  | .verbose => debug
  | .quiet => error
  | .normal => warn

end LogLevel

structure LogEntry where
  level : LogLevel
  text : String
deriving DecidableEq, Repr

def LogEntry.line (entry : LogEntry) : String :=
  String.ofList (entry.level.name.toList.map Char.toUpper) ++ " "
    ++ String.ofList (Text.disarm entry.text.toList)

structure LogFilter where
  lightest? : Option LogLevel
deriving DecidableEq

namespace LogFilter

def shows (filter : LogFilter) (entry : LogEntry) : Bool :=
  filter.lightest?.any (entry.level.ctorIdx ≤ ·.ctorIdx)

end LogFilter

/-! ### Wording -/

def Path.shown (p : Path) : String :=
  String.ofList p.display

def Scan.Event.told : Scan.Event → LogEntry
  | skipped directory => ⟨.debug, "Skipping " ++ directory.shown⟩
  | found file => ⟨.trace, "Found " ++ file.shown⟩

def Scan.told (scan : Scan) : List LogEntry :=
  scan.events.map Scan.Event.told ++
    [⟨.info, "Collected " ++ toString scan.candidates.files.length ++ " ."
      ++ String.ofList scan.options.extension ++ " files under " ++ scan.root.shown⟩]

def Build.Event.told : Build.Event → LogEntry
  | entryMissed entry fault =>
    ⟨.debug, "Entry " ++ entry.shown ++ " is not readable: " ++ fault.message⟩
  | missed path fault => ⟨.debug, "Skipping " ++ path.shown ++ ": " ++ fault.message⟩
  | revisited node => ⟨.trace, "Already visited " ++ node.shown⟩
  | unread node fault =>
    ⟨.debug, "Skipping unreadable " ++ node.shown ++ ": " ++ fault.message⟩
  | visited node => ⟨.debug, "Visiting " ++ node.shown⟩
  | unresolved name node =>
    ⟨.trace, "No file for '" ++ String.ofList name ++ "' referenced from " ++ node.shown⟩
  | linked source target name =>
    ⟨.debug, source.shown ++ " -> " ++ target.shown ++ " (via '" ++ String.ofList name ++ "')"⟩

namespace Config

def optionText (text : α → String) : Option α → String
  | some a => "Some(" ++ text a ++ ")"
  | none => "None"

def formatText : OutputFormat → String
  | .ascii => "Ascii"
  | .html => "Html"
  | .json => "Json"

def quotedText (text : Text) : String :=
  String.ofList (Text.quote text)

def shown (config : Config) : String :=
  "GraphConfig \x7b root: " ++ optionText (fun p => quotedText p.display) config.root?
    ++ ", output: " ++ optionText formatText config.output?
    ++ ", extension: " ++ optionText quotedText config.extension?
    ++ ", exclude: "
    ++ optionText (fun names => "[" ++ ", ".intercalate (names.map quotedText) ++ "]")
      config.exclude?
    ++ ", sorted: " ++ optionText (fun b : Bool => if b then "true" else "false") config.sorted?
    ++ ", depth: " ++ optionText (fun n : Nat => toString n) config.depth? ++ " \x7d"

end Config

end ComponentTree
