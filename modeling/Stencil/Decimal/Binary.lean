/-!
# Doubles as exact numbers

A finite double is `m · 2 ^ q` for a mantissa and an exponent that can be read off its bits.  This
file goes both ways: `parts` takes a double apart, and `nearest?` finds the double nearest to a
quotient of two natural numbers, an exact tie going to the even mantissa.  All arithmetic is on
natural numbers, so nothing is lost on the way.
-/

namespace Stencil.Decimal

def twoPow (k : Nat) : Nat := Nat.pow 2 k

def tenPow (k : Nat) : Nat := Nat.pow 10 k

/-- A finite double, taken apart: it is `mantissa · 2 ^ exponent`, negative when `negative`. -/
structure Parts where
  negative : Bool
  /-- The mantissa, below `2 ^ 53`. -/
  mantissa : Nat
  exponent : Int
  deriving DecidableEq, Repr

/-- The mantissa and exponent of a double; meaningful for finite ones. -/
def parts (f : Float) : Parts :=
  let bits := f.toBits.toNat
  let fraction : Nat := bits % twoPow 52
  let biased : Nat := bits / twoPow 52 % twoPow 11
  if biased = 0 then ⟨decide (twoPow 63 ≤ bits), fraction, -1074⟩
  else ⟨decide (twoPow 63 ≤ bits), twoPow 52 + fraction, (biased : Int) - 1075⟩

/-- Whether a double carries a minus sign, zero included. -/
def isNegative (f : Float) : Bool := (parts f).negative

/-- A quotient rounded to the nearest natural number, a tie going to the even one. -/
def roundDiv (num den : Nat) : Nat :=
  let q := num / den
  let twice := 2 * (num % den)
  if twice < den || (twice == den && q % 2 == 0) then q else q + 1

/-- The number of binary digits of a natural number. -/
def bitLength (n : Nat) : Nat := if n = 0 then 0 else n.log2 + 1

/-- `num / den · 2 ^ shift`, as a quotient of natural numbers. -/
def scaled (num den : Nat) (shift : Int) : Nat × Nat :=
  if 0 ≤ shift then (num * twoPow shift.toNat, den) else (num, den * twoPow (-shift).toNat)

/-- The bits of the positive double `mantissa · 2 ^ exponent`, or nothing when it is too large. -/
def pack? (mantissa : Nat) (exponent : Int) : Option Nat :=
  if mantissa < twoPow 52 then some mantissa
  else
    let (mantissa, exponent) :=
      if mantissa = twoPow 53 then (twoPow 52, exponent + 1) else (mantissa, exponent)
    let biased := exponent + 1075
    if 2047 ≤ biased then none
    else some (biased.toNat * twoPow 52 + (mantissa - twoPow 52))

/-- The double nearest to `num / den`, or nothing when it is too large. -/
def nearest? (num den : Nat) : Option Float :=
  if num = 0 then some 0.0
  else
    let guess : Int := (bitLength num : Int) - bitLength den - 53
    -- `num / den` lies between `2 ^ (52 + guess)` and `2 ^ (54 + guess)`
    let low := scaled num den (-guess)
    let guess := if twoPow 53 * low.2 ≤ low.1 then guess + 1 else guess
    let exponent := max guess (-1074)
    let (n, d) := scaled num den (-exponent)
    (pack? (roundDiv n d) exponent).map fun bits => Float.ofBits bits.toUInt64

/-- The double nearest to an integer; infinite when it is too large. -/
def ofInt (i : Int) : Float :=
  match nearest? i.natAbs 1 with
  | some f => if i < 0 then -f else f
  | none => if i < 0 then -(1.0 / 0.0) else 1.0 / 0.0

def isInteger (f : Float) : Bool :=
  let p := parts f
  f.isFinite && (0 ≤ p.exponent || p.mantissa % twoPow (-p.exponent).toNat == 0)

def truncate (f : Float) : Int :=
  let p := parts f
  let size : Nat :=
    if 0 ≤ p.exponent then p.mantissa * twoPow p.exponent.toNat
    else p.mantissa / twoPow (-p.exponent).toNat
  if p.negative then -size else size

end Stencil.Decimal
