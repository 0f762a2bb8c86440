/-!
This module contains numbers as they are held and as they are written: the ranges of integers of so
many bits, decimal numbers, and the floating-point numbers of 64 bits that are nearest to these.
-/

namespace ComponentTree

def fits (bits n : Nat) : Bool :=
  n < Nat.pow 2 bits

def fitsUnsigned (bits : Nat) : (n : Int) → Bool
  | .ofNat n => fits bits n
  | .negSucc _ => false

def fitsSigned (bits : Nat) : (n : Int) → Bool
  | .ofNat n => fits (bits - 1) n
  | .negSucc n => fits (bits - 1) n

structure Decimal where
  negative : Bool
  digits : Nat
  exponent : Int
deriving DecidableEq, Repr

structure Ratio where
  num : Nat
  den : Nat

namespace Ratio

def scale (r : Ratio) (base : Nat) (exponent : Int) : Ratio :=
  match exponent with
  | .ofNat n => ⟨r.num * Nat.pow base n, r.den⟩
  | .negSucc n => ⟨r.num, r.den * Nat.pow base (n + 1)⟩

inductive Tie where
  | even
  | greater

def round (tie : Tie) (r : Ratio) : Nat :=
  let whole := r.num / r.den
  let doubledRest := 2 * (r.num % r.den)
  if doubledRest < r.den then whole
  else if r.den < doubledRest then whole + 1
  else
    match tie with
    | .even => whole + whole % 2
    | .greater => whole + 1

def log2 (r : Ratio) : Int :=
  let guess : Int := r.num.log2 - r.den.log2
  let scaled := r.scale 2 (-guess)
  if scaled.num < scaled.den then guess - 1 else guess

end Ratio

structure Binary64 where
  mantissa : Nat
  exponent : Int
deriving DecidableEq, Repr

namespace Binary64

def minExponent : Int := -1074

def maxExponent : Int := 971

def nearest? (r : Ratio) : Option Binary64 :=
  let exponent := max minExponent (r.log2 - 52)
  let mantissa := (r.scale 2 (-exponent)).round .even
  let (mantissa, exponent) :=
    if mantissa = Nat.pow 2 53 then (Nat.pow 2 52, exponent + 1) else (mantissa, exponent)
  if maxExponent < exponent then none else some ⟨mantissa, exponent⟩

end Binary64

def digitCount (n : Nat) : Nat :=
  (Nat.toDigits 10 n).length

def Decimal.magnitude? (d : Decimal) : Option Binary64 :=
  let magnitude : Int := digitCount d.digits + d.exponent
  -- Numbers far beyond all floating-point numbers are not written out.
  if d.digits = 0 ∨ magnitude < -400 then some ⟨0, Binary64.minExponent⟩
  else if 400 < magnitude then none
  else Binary64.nearest? ((⟨d.digits, 1⟩ : Ratio).scale 10 d.exponent)

end ComponentTree
