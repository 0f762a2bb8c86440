import ComponentTree.Run
import Std.Data.HashMap

/-!
This module contains the command itself. It looks at the files that a run may ask about, and leaves
the run to the rest of the library.
-/

namespace ComponentTree.Main

structure Findings where
  canonical : Std.HashMap String (Except Fault Path) := {}
  content : Std.HashMap String (Except Fault Bytes) := {}
  directories : Std.HashMap String FileTree := {}

def faultOfNumber (number : Nat) : Fault :=
  match number with
  | 13 => .accessDenied
  | 20 => .notDirectory
  | 21 => .isDirectory
  | 36 => .nameTooLong
  | 40 => .tooManyLinks
  | _ => .notFound

def faultOf : IO.Error → Fault
  | .noFileOrDirectory _ number _ | .permissionDenied _ number _ | .inappropriateType _ number _
  | .invalidArgument _ number _ => faultOfNumber number.toNat
  | _ => .notFound

def attempt (action : IO α) : IO (Except Fault α) := do
  match ← action.toBaseIO with
  | .ok a => return .ok a
  | .error e => return .error (faultOf e)

def canonical (p : Path) : IO (Except Fault Path) :=
  attempt do return Path.ofText (← IO.FS.realPath p.shown).toString.toList

def content (p : Path) : IO (Except Fault Bytes) :=
  attempt do return (← IO.FS.readBinFile p.shown).toList

partial def tree (p : Path) : IO FileTree := do
  let directory ← IO.FS.realPath p.shown
  let entries ← directory.readDir
  let entries ← entries.mapM fun entry => do
    let name := Text.Utf8.encode entry.fileName.toList
    -- A scan asks neither for what files contain nor for where links lead.
    match (← entry.path.symlinkMetadata).type with
    | .dir => return (name, ← tree (p.child name))
    | .file => return (name, .file [])
    | _ => return (name, .link ⟨[]⟩)
  return .directory entries.toList

def Findings.askCanonical (findings : Findings) (p : Path) : IO Findings := do
  return { findings with canonical := findings.canonical.insert p.shown (← Main.canonical p) }

def Findings.askContent (findings : Findings) (p : Path) : IO Findings := do
  return { findings with content := findings.content.insert p.shown (← Main.content p) }

def Findings.askSource (findings : Findings) (p : Path) : IO Findings := do
  let findings ← findings.askCanonical p
  match findings.canonical[p.shown]? with
  | some (.ok node) => (← findings.askCanonical node).askContent node
  | _ => return findings

def Findings.askDirectory (findings : Findings) (p : Path) : IO Findings := do
  let findings ← findings.askCanonical p
  match findings.canonical[p.shown]? with
  | some (.ok root) =>
    match ← attempt (tree root) with
    | .ok t => return { findings with directories := findings.directories.insert root.shown t }
    | .error _ => return findings
  | _ => return findings

def Findings.disk (findings : Findings) (workingDirectory : Path) : Disk where
  workingDirectory
  canonical p := findings.canonical.getD p.shown (.error .notFound)
  content p := findings.content.getD p.shown (.error .notFound)
  directory? p := findings.directories[p.shown]?

def survey (line : CommandLine) (workingDirectory : Path) : IO Disk := do
  let mut findings : Findings := {}
  let mut config : Config := {}
  if let some p := line.config? then
    findings ← findings.askContent p
    if let .ok c := ((findings.disk workingDirectory).loadConfig p).result then
      config := c
  if let .ok settings := Settings.ofCommandLine line config workingDirectory then
    findings ← findings.askDirectory settings.root
    if let .ok scan := (findings.disk workingDirectory).scan settings.root settings.scan then
      let targets := line.targets ++ line.targets.filterMap (·.absolute? workingDirectory)
      for p in targets ++ scan.candidates.files do
        findings ← findings.askSource p
  return findings.disk workingDirectory

end ComponentTree.Main

open ComponentTree in
def main (args : List String) : IO UInt32 := do
  let env : Environment :=
    { logLevel? := ← IO.getEnv "RUST_LOG", forceColour? := ← IO.getEnv "CLICOLOR_FORCE" }
  let args := args.map String.toList
  let workingDirectory := Path.ofText (← IO.currentDir).toString.toList
  let disk ←
    match CommandLine.ofArguments args with
    | .ok line => Main.survey line workingDirectory
    | .error _ => pure (({} : Main.Findings).disk workingDirectory)
  let outcome := disk.run env args
  IO.eprint outcome.messages
  IO.print (String.ofList outcome.output)
  return outcome.code.toUInt32
