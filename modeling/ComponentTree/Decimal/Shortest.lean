import ComponentTree.Decimal
import ComponentTree.Text.Basic

/-!
This module contains the text of a floating-point number: the fewest digits that read back as the
number, written out in positional notation.
-/

namespace ComponentTree

namespace Binary64

def ratio (x : Binary64) : Ratio :=
  (⟨x.mantissa, 1⟩ : Ratio).scale 2 x.exponent

def isReadFrom (x : Binary64) (digits : Nat) (exponent : Int) : Bool :=
  let r := ((⟨digits, 1⟩ : Ratio).scale 10 exponent).scale 2 (2 - x.exponent)
  -- The neighbour below is nearer where the exponent changes. The middle between two neighbours is
  -- read as the one with an even mantissa.
  let below := if x.mantissa = Nat.pow 2 52 ∧ minExponent < x.exponent then 1 else 2
  let low := (4 * x.mantissa - below) * r.den
  let high := (4 * x.mantissa + 2) * r.den
  if x.mantissa % 2 = 0 then low ≤ r.num && r.num ≤ high else low < r.num && r.num < high

def log10 (x : Binary64) : Int :=
  let guess := x.ratio.log2 * 30103 / 100000
  let reaches (e : Int) : Bool :=
    let scaled := x.ratio.scale 10 (-e)
    scaled.den ≤ scaled.num
  if reaches (guess + 1) then guess + 1 else if reaches guess then guess else guess - 1

/--
The digits of `x` on the grid of decimals with `count` digits: of the two neighbours of `x` the one
that reads back as `x`, and of both the nearer one, or the one above if they are equally near. The
neighbour above may be a power of ten, which has one digit more on this grid.
-/
def onGrid? (x : Binary64) (count : Nat) : Option (Nat × Int) :=
  let exponent := x.log10 + 1 - count
  let scaled := x.ratio.scale 10 (-exponent)
  let below := scaled.num / scaled.den
  let nearest := scaled.round .greater
  [nearest, below, below + 1].findSome? fun digits =>
    if !x.isReadFrom digits exponent then none
    else if digits = Nat.pow 10 count then some (digits / 10, exponent + 1)
    else some (digits, exponent)

def shortest (x : Binary64) : Nat × Int :=
  ((List.range 17).findSome? fun n => x.onGrid? (n + 1)).getD (x.mantissa, 0)

end Binary64

namespace Decimal

def digitText (n : Nat) : Text :=
  Nat.toDigits 10 n

def positional (digits : Nat) (exponent : Int) : Text :=
  match exponent with
  | .ofNat n => digitText (digits * Nat.pow 10 n) ++ ['.', '0']
  | .negSucc n =>
    let places := n + 1
    let text := digitText digits
    let padded := List.replicate (places + 1 - text.length) '0' ++ text
    padded.take (padded.length - places) ++ '.' :: padded.drop (padded.length - places)

def floatText? (d : Decimal) : Option Text :=
  d.magnitude?.map fun x =>
    let (digits, exponent) := if x.mantissa = 0 then (0, 0) else x.shortest
    (if d.negative then ['-'] else []) ++ positional digits exponent

end Decimal

end ComponentTree
