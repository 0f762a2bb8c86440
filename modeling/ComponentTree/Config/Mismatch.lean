import ComponentTree.Decimal
import ComponentTree.Decimal.Shortest
import ComponentTree.Render.Options
import ComponentTree.Text.Quoted
import ComponentTree.Toml.Value

/-!
This module contains the ways in which the table of a document is no configuration, and their
wording.
-/

namespace ComponentTree.Config

open Toml (Scalar FloatLiteral Value)

def keys : List String := ["root", "output", "extension", "exclude", "sorted", "depth"]

inductive Wanted where
  | path
  | text
  | list
  | flag
  | count
deriving DecidableEq

def Wanted.name : Wanted → String
  | path => "path string"
  | text => "a string"
  | list => "a sequence"
  | flag => "a boolean"
  | count => "usize"

inductive Found where
  | string (text : Text)
  | integer (value : Int)
  | float (text : Text)
  | boolean (value : Bool)
  | list
  | table

inductive Mismatch where
  | unknownKey (name : Text)
  | unknownFormat (name : Text)
  | wrongType (found : Found) (wanted : Wanted)
  | negativeCount (value : Int)
  | integerOverflow
  | floatOverflow
  | outputUnnamed
  | outputEmpty
  | outputAmbiguous
  | outputScalar (scalar : Scalar)
  | outputFilled (isArray : Bool)

def listing (names : List String) : String :=
  ", ".intercalate (names.map fun name => "\x60" ++ name ++ "\x60")

def floatText? : FloatLiteral → Option Text
  | .finite value => value.floatText?
  | .infinite negative => some (if negative then "-inf".toList else "inf".toList)
  | .notANumber => some "NaN".toList

def Found.ofInteger? (n : Int) : Option Found :=
  if fitsSigned 128 n || fitsUnsigned 128 n then some (.integer n) else none

def Mismatch.ofValue (wanted : Wanted) : Value → Mismatch
  | .scalar _ (.string text) => wrongType (.string text) wanted
  | .scalar _ (.integer n?) =>
    match n?.bind Found.ofInteger? with
    | some found => wrongType found wanted
    | none => integerOverflow
  | .scalar _ (.float value) =>
    match floatText? value with
    | some text => wrongType (.float text) wanted
    | none => floatOverflow
  | .scalar _ (.boolean b) => wrongType (.boolean b) wanted
  | .scalar _ .moment => wrongType .table wanted
  | .array .. => wrongType .list wanted
  | .table .. => wrongType .table wanted

def integerSuffix (n : Int) : String :=
  if fitsSigned 64 n || fitsUnsigned 64 n then ""
  else if fitsSigned 128 n then " as i128"
  else " as u128"

def Found.text : Found → String
  | string text => "string " ++ String.ofList (Text.quote text)
  | integer n => "integer \x60" ++ toString n ++ "\x60" ++ integerSuffix n
  | float text => "floating point \x60" ++ String.ofList text ++ "\x60"
  | boolean b => "boolean \x60" ++ (if b then "true" else "false") ++ "\x60"
  | list => "sequence"
  | table => "map"

def scalarName : Scalar → String
  | .string _ => "string"
  | .integer _ => "integer"
  | .float _ => "float"
  | .boolean _ => "boolean"
  | .moment => "datetime"

def Mismatch.message : Mismatch → String
  | unknownKey name =>
    "unknown field \x60" ++ String.ofList name ++ "\x60, expected one of " ++ listing keys
  | unknownFormat name =>
    "unknown variant \x60" ++ String.ofList name ++ "\x60, expected one of "
      ++ listing (OutputFormat.all.map OutputFormat.name)
  | wrongType found wanted => "invalid type: " ++ found.text ++ ", expected " ++ wanted.name
  | negativeCount n => "invalid value: integer \x60" ++ toString n ++ "\x60, expected usize"
  | integerOverflow => "integer number overflowed"
  | floatOverflow => "floating-point number overflowed"
  | outputUnnamed => "wanted string or table"
  | outputEmpty => "wanted exactly 1 element, found 0 elements"
  | outputAmbiguous => "wanted exactly 1 element, more than 1 element"
  | outputScalar s => "expected table, found " ++ scalarName s
  | outputFilled isArray => "expected empty " ++ (if isArray then "array" else "table")

end ComponentTree.Config
