import Stencil.Decimal.Exponential

/-!
# Powers and remainders of doubles

`remainder` is exact: it is the remainder of the division toward zero, which is always a double.

`pow` splits the exponent into a whole and a fractional part.  The whole part is done by repeated
squaring on a mantissa between one half and one, with the exponent of two kept apart, so that
nothing overflows on the way; the fractional part goes through the logarithm.
-/

namespace Stencil.Decimal

/-- The remainder of the division toward zero; it has the sign of the dividend. -/
def remainder (x y : Float) : Float :=
  if y == 0 || x.isInf || x.isNaN || y.isNaN then nan
  else if y.isInf then x
  else
    let p := parts x
    let q := parts y
    let e := min p.exponent q.exponent
    let r := p.mantissa * twoPow (p.exponent - e).toNat % (q.mantissa * twoPow (q.exponent - e).toNat)
    scaleUp p.negative r e

/-- The remainder of the division toward minus infinity; it has the sign of the divisor. -/
def floorRemainder (x y : Float) : Float :=
  let r := remainder x y
  if decide (x < 0) != decide (y < 0) && r != 0 then r + y else r

def isOdd (f : Float) : Bool := isInteger f && truncate f % 2 != 0

/-- Multiplies `acc · 2 ^ e` by the `n`-th power of `x · 2 ^ xe`, squaring at most `steps` times. -/
def powLoop : Nat → Nat → Float → Int → Float → Int → Float × Int
  | 0, _, _, _, acc, e => (acc, e)
  | steps + 1, n, x, xe, acc, e =>
    if n = 0 then (acc, e)
    else if xe < -4096 || 4096 < xe then (acc, e + xe)
    else
      let (acc, e) := if n % 2 = 1 then (acc * x, e + xe) else (acc, e)
      let square := x * x
      let (x, xe) := if square < 0.5 then (square + square, 2 * xe - 1) else (square, 2 * xe)
      powLoop steps (n / 2) x xe acc e

def powFinite (x y : Float) : Float :=
  let size := y.abs
  let whole := truncate size
  let fraction := size - ofInt whole
  if fraction != 0 && x < 0 then nan
  else if twoPow 63 ≤ whole then
    if x == -1 then 1.0
    else if decide (x.abs < 1) == decide (0 < y) then 0.0
    else infinity
  else
    let (whole, start) :=
      if fraction == 0 then (whole, 1.0)
      else if 0.5 < fraction then (whole + 1, exp ((fraction - 1.0) * log x))
      else (whole, exp (fraction * log x))
    let (mantissa, exponent) := split x
    let (acc, e) := powLoop 64 whole.toNat mantissa exponent start 0
    if y < 0 then shift (1.0 / acc) (-e) else shift acc e

def powOfZero (x y : Float) : Float :=
  let odd := isOdd y
  if y < 0 then (if isNegative x && odd then -infinity else infinity)
  else if isNegative x && odd then x
  else 0.0

/-- `x` to the power `y`. -/
def pow (x y : Float) : Float :=
  if y == 0 || x == 1 then 1.0
  else if y == 1 then x
  else if x.isNaN || y.isNaN then nan
  else if x == 0 then powOfZero x y
  else if y.isInf then
    if x == -1 then 1.0
    else if decide (x.abs < 1) == decide (0 < y) then 0.0
    else infinity
  else if x.isInf then
    if x < 0 then powOfZero (-0.0) (-y)
    else if y < 0 then 0.0
    else infinity
  else if y == 0.5 then Float.sqrt x
  else if y == -0.5 then 1.0 / Float.sqrt x
  else powFinite x y

end Stencil.Decimal
