import Stencil.Decimal.Binary

/-!
# Decimal digits of a double

`shortest` gives the fewest decimal digits that still read back as the same double, and of those the
ones nearest to it.  A decimal reads back when it lies in the interval of numbers that round to the
double; the ends of the interval count when the mantissa is even.  For each number of digits the two
neighbours of the double on that decimal grid are the only candidates, and seventeen digits always
suffice.

`significant` gives a fixed number of digits, a tie going to the even one.
-/

namespace Stencil.Decimal

/-- A positive decimal `0.d₁d₂… · 10 ^ point`, without trailing zeros. -/
structure Digits where
  /-- The digits, most significant first. -/
  digits : List Char
  /-- The place of the decimal point, counted from the first digit. -/
  point : Int
  deriving DecidableEq, Repr

def decimalLength (n : Nat) : Nat := (Nat.toDigits 10 n).length

/-- The digits of `coefficient · 10 ^ exponent`. -/
def Digits.ofScaled (coefficient : Nat) (exponent : Int) : Digits :=
  let digits := Nat.toDigits 10 coefficient
  ⟨(digits.reverse.dropWhile (· == '0')).reverse, digits.length + exponent⟩

/-- The exponent `e` with `10 ^ e ≤ num / den < 10 ^ (e + 1)`. -/
def decimalExponent (num den : Nat) : Int :=
  let d : Int := (decimalLength num : Int) - decimalLength den
  let reached := if 0 ≤ d then den * tenPow d.toNat ≤ num else den ≤ num * tenPow (-d).toNat
  if reached then d else d - 1

/-- `n · 2 ^ two · 10 ^ ten` as a quotient of natural numbers. -/
def power (n : Nat) (two ten : Int) : Nat × Nat :=
  (n * twoPow two.toNat * tenPow ten.toNat, twoPow (-two).toNat * tenPow (-ten).toNat)

/-- The interval of numbers that round to `m · 2 ^ q`, in quarters of `2 ^ q`: the lower end, the
upper end, and whether the ends belong to it. -/
def interval (m : Nat) (q : Int) : Nat × Nat × Bool :=
  let below := if m = twoPow 52 && q ≠ -1074 then 1 else 2
  (4 * m - below, 4 * m + 2, m % 2 == 0)

/-- Whether the decimal `coefficient · 10 ^ exponent` reads back as `m · 2 ^ q`. -/
def readsBack (m : Nat) (q : Int) (coefficient : Nat) (exponent : Int) : Bool :=
  let (low, high, closed) := interval m q
  -- `coefficient · 10 ^ exponent · 2 ^ (2 - q)` against the two ends
  let (n, d) := power coefficient (2 - q) exponent
  if closed then low * d ≤ n && n ≤ high * d else low * d < n && n < high * d

/-- The candidate of `count` digits for `m · 2 ^ q`, whose decimal exponent is `e`: of the two
neighbours on the grid those that read back, the nearer first. -/
def candidate? (m : Nat) (q e : Int) (count : Nat) : Option Nat :=
  let unit := e - count + 1
  let (n, d) := power m q (-unit)
  let below := n / d
  let rest := n % d
  let lower := readsBack m q below unit
  let upper := readsBack m q (below + 1) unit
  let nearerBelow := 2 * rest < d || (2 * rest == d && below % 2 == 0)
  match lower, upper with
  | true, true => some (if nearerBelow then below else below + 1)
  | true, false => some below
  | false, true => some (below + 1)
  | false, false => none

/-- The first number of digits, from `count` on, that has a candidate. -/
def searchDigits (m : Nat) (q e : Int) : Nat → Nat → Digits
  | 0, count => Digits.ofScaled (roundDiv (power m q (count - e - 1)).1 (power m q (count - e - 1)).2)
      (e - count + 1)
  | fuel + 1, count =>
    match candidate? m q e count with
    | some c => Digits.ofScaled c (e - count + 1)
    | none => searchDigits m q e fuel (count + 1)

/-- The fewest digits that read back as a finite double, sign aside. -/
def shortest (f : Float) : Digits :=
  let p := parts f
  if p.mantissa = 0 then ⟨[], 0⟩
  else
    let (n, d) := power p.mantissa p.exponent 0
    searchDigits p.mantissa p.exponent (decimalExponent n d) 16 1

/-- A finite double rounded to `count` significant digits, sign aside. -/
def significant (f : Float) (count : Nat) : Digits :=
  let p := parts f
  if p.mantissa = 0 then ⟨[], 0⟩
  else
    let (n, d) := power p.mantissa p.exponent 0
    let unit := decimalExponent n d - count + 1
    let (n, d) := power p.mantissa p.exponent (-unit)
    Digits.ofScaled (roundDiv n d) unit

end Stencil.Decimal
