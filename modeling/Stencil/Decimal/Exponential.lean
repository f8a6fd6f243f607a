import Stencil.Decimal.Binary

/-!
# Exponentials and logarithms of doubles

Both functions are written out in the operations of doubles, so their last digits are settled here
and depend on nothing else.

* `exp` takes a multiple of `log 2` off, in two pieces, sums eight terms of the series at a sixteenth
  of the rest, and squares four times.  Its products are added without being rounded first (`fma`).
* `log` takes the exponent of two off, and sums a polynomial in `f / (2 + f)`, where `1 + f` is the
  rest, which lies around one.
-/

namespace Stencil.Decimal

def nan : Float := 0.0 / 0.0

def infinity : Float := 1.0 / 0.0

def withSign (negative : Bool) (f : Float) : Float := if negative then -f else f

/-- The double nearest to `num · 2 ^ exponent`; infinite when it is too large. -/
def scaleUp (negative : Bool) (num : Nat) (exponent : Int) : Float :=
  let (n, d) := scaled num 1 exponent
  withSign negative ((nearest? n d).getD infinity)

/-- `f · 2 ^ exponent`. -/
def shift (f : Float) (exponent : Int) : Float :=
  if f == 0 || !f.isFinite then f
  else
    let p := parts f
    let e := p.exponent + exponent
    -- far out of range the result is settled
    if e < -1200 then withSign p.negative 0.0
    else if 1100 < e then withSign p.negative infinity
    else scaleUp p.negative p.mantissa e

/-- A double as a number between one half and one and an exponent of two. -/
def split (f : Float) : Float × Int :=
  if f == 0 || !f.isFinite then (f, 0)
  else
    let p := parts f
    let n := bitLength p.mantissa
    (scaleUp p.negative p.mantissa (-(n : Int)), p.exponent + n)

def Parts.signed (p : Parts) : Int := if p.negative then -p.mantissa else p.mantissa

/-- `x · y + z` for finite doubles, rounded once. -/
def fma (x y z : Float) : Float :=
  let p := parts x
  let q := parts y
  let r := parts z
  let e := min (p.exponent + q.exponent) r.exponent
  let product := p.signed * q.signed * twoPow (p.exponent + q.exponent - e).toNat
  let sum := product + r.signed * twoPow (r.exponent - e).toNat
  scaleUp (sum < 0) sum.natAbs e

/-! ## The exponential -/

/-- The integer nearest to a double, a tie going to the even one. -/
def nearestInt (x : Float) : Int :=
  let low := truncate x.floor
  let rest := x - x.floor
  if rest < 0.5 then low
  else if 0.5 < rest then low + 1
  else if low % 2 = 0 then low else low + 1

def terms : List Float :=
  [1.9841269841269841270e-4, 1.3888888888888888889e-3, 8.3333333333333333333e-3,
   4.1666666666666666667e-2, 1.6666666666666666667e-1, 0.5, 1.0]

/-- `e ^ x - 1` from the same for half of `x`. -/
def double (y : Float) : Float := y * (y + 2.0)

def exp (x : Float) : Float :=
  let n := nearestInt (x * 1.4426950408889634073599246810018920)
  let k := ofInt n
  let x := fma (-k) 0.69314718055966295651160180568695068359375 x
  let x := fma (-k) 0.28235290563031577122588448175013436025525412068e-12 x
  let x := x * 0.0625
  let y := x * terms.foldl (fun sum c => fma sum x c) 2.4801587301587301587e-5
  let y := double (double (double y))
  shift (fma y (y + 2.0) 1.0) n

/-! ## The logarithm -/

def log (x : Float) : Float :=
  let (m, e) := split x
  let (m, e) := if m < 7.07106781186547524401e-01 then (m * 2.0, e - 1) else (m, e)
  let k := ofInt e
  let f := m - 1.0
  let s := f / (2.0 + f)
  let s2 := s * s
  let s4 := s2 * s2
  let odd := s2 * (6.666666666666735130e-01 + s4 * (2.857142874366239149e-01 +
    s4 * (1.818357216161805012e-01 + s4 * 1.479819860511658591e-01)))
  let even := s4 * (3.999999999940941908e-01 + s4 * (2.222219843214978396e-01 +
    s4 * 1.531383769920937332e-01))
  let half := 0.5 * f * f
  k * 6.93147180369123816490e-01 -
    ((half - (s * (half + (odd + even)) + k * 1.90821492927058770002e-10)) - f)

end Stencil.Decimal
