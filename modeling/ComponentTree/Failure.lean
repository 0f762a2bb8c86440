import ComponentTree.Text.Basic

/-!
This module contains the ways in which a look at a file can fail, and the failures that end a run,
with their wording. Sources that cannot be read and names that no file carries are no failures of
the run.
-/

namespace ComponentTree

inductive Fault where
  | notFound
  | notDirectory
  | isDirectory
  | nameTooLong
  | tooManyLinks
  | accessDenied
  | nulInPath
  | notUtf8
deriving DecidableEq, Repr

inductive FaultKind where
  | notFound
  | accessDenied
  | unspecific
deriving DecidableEq, Repr

namespace Fault

def kind : Fault → FaultKind
  | notFound => .notFound
  | accessDenied => .accessDenied
  | _ => .unspecific

def message : Fault → String
  | notFound => "No such file or directory (os error 2)"
  | notDirectory => "Not a directory (os error 20)"
  | isDirectory => "Is a directory (os error 21)"
  | nameTooLong => "File name too long (os error 36)"
  | tooManyLinks => "Too many levels of symbolic links (os error 40)"
  | accessDenied => "Permission denied (os error 13)"
  | nulInPath => "file name contained an unexpected NUL byte"
  | notUtf8 => "stream did not contain valid UTF-8"

end Fault

inductive Failure where
  | rootUnreadable (path reason : String)
  | configMissing (path : String)
  | configInvalid (file reason : String)
  | depthInvalid (depth : Nat)
  | documentFailed (reason : String)
  | other (message : String)
deriving DecidableEq

namespace Failure

def message : Failure → String
  | rootUnreadable path _ => "Cannot list root directory: " ++ path
  | configMissing path => "Configuration file not found: " ++ path
  | configInvalid file reason => "Invalid configuration file " ++ file ++ ": " ++ reason
  | depthInvalid depth => "Invalid depth " ++ toString depth ++ ": depth must be at least 1"
  | documentFailed reason => "Failed to render HTML document: " ++ reason
  | other message => message

def suggestion? : Failure → Option String
  | rootUnreadable _ _ =>
    some "Pass an existing directory with --root, or run the command from your project directory"
  | configMissing _ => some "Check the path given to --config, or omit the flag to use defaults"
  | configInvalid _ _ =>
    some "Check the TOML syntax. Known keys: root, output, extension, exclude, sorted, depth"
  | depthInvalid _ => some "Use --depth 1 to show only direct dependencies, or omit it"
  | documentFailed _ => none
  | other _ => none

def details? : Failure → Option String
  | rootUnreadable path reason => some ("Listing '" ++ path ++ "' failed: " ++ reason)
  | configInvalid _ _ => some "output must be one of \"ascii\", \"html\" or \"json\""
  | _ => none

end Failure

end ComponentTree
