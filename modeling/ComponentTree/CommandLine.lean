import ComponentTree.CommandLine.Refusal
import ComponentTree.Decimal
import ComponentTree.Path
import ComponentTree.Render.Options

/-!
This module contains the command line and its reading from arguments. Arguments are read from left
to right; a value that an option still waits for, and the targets given in a row, are looked at only
when the next argument has been understood.
-/

namespace ComponentTree

inductive Verbosity where
  | normal
  | verbose
  | quiet
deriving DecidableEq, Repr

structure CommandLine where
  targets : List Path := []
  root? : Option Path := none
  output? : Option OutputFormat := none
  depth? : Option Nat := none
  sorted : Bool := false
  config? : Option Path := none
  verbosity : Verbosity := .normal
deriving DecidableEq

namespace CommandLine

inductive Stop where
  | refused (refusal : Refusal)
  | help (full : Bool)
  | version
deriving DecidableEq

abbrev Read := Except Stop

def refuse (refusal : Refusal) : Read α :=
  throw (.refused refusal)

inductive Pending where
  | nothing
  | setting (setting : Setting) (value? : Option Text)
  | targets (words : List Text)

structure Progress where
  -- Its verbosity is not known before the end: `loudness` has the flags for it in their order.
  line : CommandLine := {}
  loudness : List Flag := []
  pending : Pending := .nothing

def depthOfDigits (n : Nat) : Text → Except DepthFlaw Nat
  | [] => .ok n
  | c :: digits =>
    if !c.isDigit then .error .notDigits
    else
      let n := n * 10 + (c.toNat - 0x30)
      if fits 64 n then depthOfDigits n digits else .error .tooLarge

def readDepth : (value : Text) → Except DepthFlaw Nat
  | [] => .error .empty
  | ['+'] => .error .notDigits
  | '+' :: digits => depthOfDigits 0 digits
  | digits => depthOfDigits 0 digits

def readPath (label : String) (value : Text) : Read Path :=
  if value = [] then refuse (.noValue label) else return Path.ofText value

def readFormat (value : Text) : Read OutputFormat :=
  match OutputFormat.ofName? (String.ofList value) with
  | some format => return format
  | none =>
    if value = [] then refuse (.noValue (Switch.setting .output).label)
    else refuse (.unknownFormat value)

namespace Progress

def has (s : Progress) : Switch → Bool
  | .setting .root => s.line.root?.isSome
  | .setting .output => s.line.output?.isSome
  | .setting .depth => s.line.depth?.isSome
  | .setting .config => s.line.config?.isSome
  | .flag .sorted => s.line.sorted
  | .flag flag => s.loudness.contains flag
  | .help | .version => false

def set (s : Progress) (setting : Setting) (value : Text) : Read Progress := do
  let switch := Switch.setting setting
  if s.has switch then refuse (.repeated switch)
  else
    match setting with
    | .root => return { s with line.root? := some (← readPath switch.label value) }
    | .config => return { s with line.config? := some (← readPath switch.label value) }
    | .output => return { s with line.output? := some (← readFormat value) }
    | .depth =>
      match readDepth value with
      | .ok n => return { s with line.depth? := some n }
      | .error flaw => refuse (.badDepth value flaw)

def settle (s : Progress) : Read Progress :=
  let settled := { s with pending := .nothing }
  match s.pending with
  | .nothing => return settled
  | .setting setting none => refuse (.noValue (Switch.setting setting).label)
  | .setting setting (some value) => settled.set setting value
  | .targets words => do
    let targets ← words.mapM (readPath targetsLabel)
    return { settled with line.targets := s.line.targets ++ targets }

def raise (s : Progress) (flag : Flag) : Read Progress := do
  let s ← s.settle
  if s.has (.flag flag) then refuse (.repeated (.flag flag))
  else
    match flag with
    | .sorted => return { s with line.sorted := true }
    | flag => return { s with loudness := s.loudness ++ [flag] }

def take (s : Progress) (setting : Setting) (value : Text) : Read Progress := do
  (← s.settle).set setting value

def await (s : Progress) (setting : Setting) : Read Progress := do
  return { ← s.settle with pending := .setting setting none }

def answer (s : Progress) (stop : Stop) : Read Progress := do
  let _ ← s.settle
  throw stop

def long (s : Progress) (name : Text) (value? : Option Text) : Read Progress :=
  match Switch.ofName? name with
  | none => refuse (.unknown ('-' :: '-' :: name))
  | some (.setting setting) =>
    match value? with
    | some value => s.take setting value
    | none => s.await setting
  | some switch =>
    match value?, switch with
    | some value, _ => refuse (.unneededValue value switch)
    | none, .flag flag => s.raise flag
    | none, .version => s.answer .version
    | none, _ => s.answer (.help true)

def short (s : Progress) : (letters : Text) → Read Progress
  | [] => return s
  | c :: letters =>
    match Switch.ofLetter? c with
    | none => refuse (.unknown ['-', c])
    | some (.setting setting) =>
      match letters with
      | [] => s.await setting
      | '=' :: value => s.take setting value
      | value => s.take setting value
    | some (.flag flag) => do (← s.raise flag).short letters
    | some .help => s.answer (.help false)
    | some .version => s.answer .version

def target (s : Progress) (word : Text) : Read Progress :=
  match s.pending with
  | .targets words => return { s with pending := .targets (words ++ [word]) }
  | _ => do return { ← s.settle with pending := .targets [word] }

def word (s : Progress) (word : Text) : Read Progress :=
  match s.pending with
  | .setting setting none => return { s with pending := .setting setting (some word) }
  | _ => s.target word

def argument (s : Progress) : (arg : Text) → Read Progress
  | '-' :: '-' :: arg =>
    let name := arg.takeWhile (· ≠ '=')
    s.long name (if name.length = arg.length then none else some (arg.drop (name.length + 1)))
  | '-' :: c :: letters => s.short (c :: letters)
  | arg => s.word arg

def arguments (s : Progress) : (args : List Text) → Read Progress
  | [] => return s
  | arg :: args =>
    if arg = ['-', '-'] then args.foldlM target s
    else do (← s.argument arg).arguments args

def finish (s : Progress) : Read CommandLine := do
  let s ← s.settle
  match s.loudness with
  | first :: second :: _ => refuse (.exclusive (.flag first) (.flag second))
  | loudness =>
    if s.line.targets = [] then refuse .noTarget
    else
      let verbosity :=
        match loudness with
        | [.verbose] => .verbose
        | [.quiet] => .quiet
        | _ => .normal
      return { s.line with verbosity }

end Progress

def ofArguments (args : List Text) : Read CommandLine := do
  (← ({} : Progress).arguments args).finish

end CommandLine

end ComponentTree
