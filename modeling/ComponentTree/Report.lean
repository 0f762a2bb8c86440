import ComponentTree.Failure

/-!
This module contains what a user is told about an error: a failure with hints, found in the chain of
causes that led to the error.
-/

namespace ComponentTree

inductive Cause where
  | failure (failure : Failure)
  | fault (kind : FaultKind) (message : String)
  | note (message : String)

namespace Cause

def message : Cause → String
  | failure f => f.message
  | fault _ message => message
  | note message => message

def failure? : Cause → Option Failure
  | failure f => some f
  | _ => none

def faultKind? : Cause → Option FaultKind
  | fault kind _ => some kind
  | _ => none

end Cause

structure CauseChain where
  outermost : Cause
  inner : List Cause

namespace CauseChain

def ofCause (cause : Cause) : CauseChain := ⟨cause, []⟩

def wrap (chain : CauseChain) (cause : Cause) : CauseChain :=
  ⟨cause, chain.outermost :: chain.inner⟩

def links (chain : CauseChain) : List Cause :=
  chain.outermost :: chain.inner

def message (chain : CauseChain) : String :=
  let causes := chain.inner.zipIdx.map fun (cause, i) =>
    "\n  " ++ toString (i + 1) ++ ": " ++ cause.message
  let heading := if chain.inner.isEmpty then "" else "\n\nCaused by:"
  chain.outermost.message ++ heading ++ String.join causes

end CauseChain

structure Report where
  failure : Failure
  suggestion? : Option String
  details? : Option String
deriving DecidableEq

namespace Report

def ofFailure (failure : Failure) : Report where
  failure
  suggestion? := failure.suggestion?
  details? := failure.details?

def ofChain (chain : CauseChain) : Report :=
  match chain.links.findSome? Cause.failure? with
  | some failure => ofFailure failure
  | none =>
    let failure := Failure.other chain.message
    match chain.links.findSome? Cause.faultKind? with
    | some .accessDenied =>
      { failure
        suggestion? := some "Check the permissions of the scanned directory and its subdirectories"
        details? := some "Every directory below the scan root must be listable" }
    | some .notFound =>
      { failure
        suggestion? := some "Check that the path exists and is spelled correctly"
        details? := none }
    | _ => { failure, suggestion? := none, details? := none }

def plainText (report : Report) : String :=
  let line (heading : String) : Option String → String
    | some text => "\n" ++ heading ++ ": " ++ text
    | none => ""
  report.failure.message ++ line "Details" report.details? ++ line "Suggestion" report.suggestion?

inductive Style where
  | plain
  | coloured

def Style.heading (style : Style) (code heading : String) : String :=
  match style with
  | plain => heading
  | coloured => "\x1b[" ++ code ++ "m" ++ heading ++ "\x1b[0m"

def terminalText (report : Report) (style : Style) : String :=
  let line (code heading : String) : Option String → String
    | some text => style.heading code heading ++ ": " ++ text ++ "\n"
    | none => ""
  line "1;31" "error" (some report.failure.message) ++ line "33" "details" report.details?
    ++ line "32" "suggestion" report.suggestion?

end Report

end ComponentTree
