import Stencil.Decimal.Binary

/-!
# Numbers

Numbers are integers of any size and doubles.  They are ordered by their exact value, whatever their
kind; a not-a-number equals itself and is greater than every other number.
-/

namespace Stencil

inductive Number
  | int (i : Int)
  | float (f : Float)

namespace Number

/-! ## Order -/

/-- The order of an integer and a finite double, by their exact values. -/
def compareExact (i : Int) (f : Float) : Ordering :=
  let p := Decimal.parts f
  let m : Int := if p.negative then -(p.mantissa : Int) else p.mantissa
  compare (i * Decimal.twoPow (-p.exponent).toNat) (m * Decimal.twoPow p.exponent.toNat)

def compareMixed (i : Int) (f : Float) : Ordering :=
  if f.isNaN then .lt
  else if f.isInf then (if 0 < f then .lt else .gt)
  else compareExact i f

def compareFloats (x y : Float) : Ordering :=
  if x < y then .lt
  else if y < x then .gt
  else if x == y then .eq
  else if x.isNaN then (if y.isNaN then .eq else .gt)
  else .lt

def compare : Number → Number → Ordering
  | int i, int j => Ord.compare i j
  | int i, float f => compareMixed i f
  | float f, int i => (compareMixed i f).swap
  | float f, float g => compareFloats f g

/-! ## Reading off -/

/-- The double nearest to a number; infinite for an integer that is too large. -/
def toFloat : Number → Float
  | int i => Decimal.ofInt i
  | float f => f

/-- A number without its fractional part; numbers that are not finite give zero. -/
def toInt : Number → Int
  | int i => i
  | float f => if f.isFinite then Decimal.truncate f else 0

def isZero : Number → Bool
  | int i => i == 0
  | float f => f == 0

def isFloat : Number → Bool
  | int _ => false
  | float _ => true

end Number
end Stencil
