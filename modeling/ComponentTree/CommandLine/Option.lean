import ComponentTree.Text.Basic

/-!
This module contains the options of the command, their names and what they take.
-/

namespace ComponentTree.CommandLine

inductive Setting where
  | root
  | output
  | depth
  | config
deriving DecidableEq, Repr

inductive Flag where
  | sorted
  | verbose
  | quiet
deriving DecidableEq, Repr

inductive Switch where
  | setting (setting : Setting)
  | flag (flag : Flag)
  | help
  | version
deriving DecidableEq, Repr

namespace Setting

def name : Setting → String
  | root => "root"
  | output => "output"
  | depth => "depth"
  | config => "config"

def letter : Setting → Char
  | root => 'r'
  | output => 'o'
  | depth => 'd'
  | config => 'c'

def valueName : Setting → String
  | root => "DIR"
  | output => "FORMAT"
  | depth => "N"
  | config => "FILE"

end Setting

namespace Flag

def name : Flag → String
  | sorted => "sorted"
  | verbose => "verbose"
  | quiet => "quiet"

def letter? : Flag → Option Char
  | sorted => none
  | verbose => some 'v'
  | quiet => some 'q'

end Flag

namespace Switch

def all : List Switch :=
  [.setting .root, .setting .output, .setting .depth, .flag .sorted, .setting .config,
    .flag .verbose, .flag .quiet, .help, .version]

def name : Switch → String
  | setting s => s.name
  | flag f => f.name
  | help => "help"
  | version => "version"

def letter? : Switch → Option Char
  | setting s => some s.letter
  | flag f => f.letter?
  | help => some 'h'
  | version => some 'V'

def label : Switch → String
  | setting s => "--" ++ s.name ++ " <" ++ s.valueName ++ ">"
  | switch => "--" ++ switch.name

def ofName? (name : Text) : Option Switch :=
  all.find? (·.name.toList = name)

def ofLetter? (c : Char) : Option Switch :=
  all.find? (·.letter? = some c)

end Switch

def targetsLabel : String := "<TARGETS>..."

end ComponentTree.CommandLine
