import Stencil.Failure
import Stencil.Number
import Stencil.Decimal.Power

/-!
# Arithmetic

The operators on numbers.  Integers stay integers, of any size, except that a division that does not
come out even and a power with a negative exponent give doubles.  With a double on either side the
other operand becomes one too, which fails for an integer that is too large.

Quotients and remainders are floored: a remainder has the sign of the divisor.
-/

namespace Stencil

inductive Arithmetic
  | add
  | sub
  | mul
  | div
  | floorDiv
  | mod
  | pow
  | bitAnd
  | bitOr
  | bitXor
  deriving DecidableEq, Repr

namespace Arithmetic

def symbol : Arithmetic → String
  | add => "+"
  | sub => "-"
  | mul => "*"
  | div => "/"
  | floorDiv => "//"
  | mod => "%"
  | pow => "**"
  | bitAnd => "b-and"
  | bitOr => "b-or"
  | bitXor => "b-xor"

def divides : Arithmetic → Bool
  | div => true
  | floorDiv => true
  | mod => true
  | _ => false

/-! ## Bits of integers of any size

A negative integer has infinitely many ones in front: it is the complement of `-i - 1`. -/

def andBits : Int → Int → Int
  | .ofNat m, .ofNat n => ((m &&& n : Nat) : Int)
  | .ofNat m, .negSucc n => ((m ^^^ (m &&& n) : Nat) : Int)
  | .negSucc m, .ofNat n => ((n ^^^ (n &&& m) : Nat) : Int)
  | .negSucc m, .negSucc n => .negSucc (m ||| n)

def orBits : Int → Int → Int
  | .ofNat m, .ofNat n => ((m ||| n : Nat) : Int)
  | .ofNat m, .negSucc n => .negSucc (n ^^^ (n &&& m))
  | .negSucc m, .ofNat n => .negSucc (m ^^^ (m &&& n))
  | .negSucc m, .negSucc n => .negSucc (m &&& n)

def xorBits : Int → Int → Int
  | .ofNat m, .ofNat n => ((m ^^^ n : Nat) : Int)
  | .ofNat m, .negSucc n => .negSucc (m ^^^ n)
  | .negSucc m, .ofNat n => .negSucc (m ^^^ n)
  | .negSucc m, .negSucc n => ((m ^^^ n : Nat) : Int)

/-! ## The operators -/

/-- A number as a double; an integer that is too large has none. -/
def finite (n : Number) : Except Failure Float :=
  match n with
  | .int i =>
    let f := Decimal.ofInt i
    if f.isInf then .error (.plain "int too large to convert to float") else .ok f
  | .float f => .ok f

def onFloats (op : Arithmetic) (x y : Float) : Float :=
  match op with
  | add => x + y
  | sub => x - y
  | mul => x * y
  | div => x / y
  | floorDiv => (x / y).floor
  | mod => Decimal.floorRemainder x y
  | _ => Decimal.pow x y

/-- An operator on two numbers; a divisor is not zero. -/
def apply (op : Arithmetic) (a b : Number) : Except Failure Number :=
  match op, a, b with
  | add, .int i, .int j => .ok (.int (i + j))
  | sub, .int i, .int j => .ok (.int (i - j))
  | mul, .int i, .int j => .ok (.int (i * j))
  | floorDiv, .int i, .int j => .ok (.int (i.fdiv j))
  | mod, .int i, .int j => .ok (.int (i.fmod j))
  | div, .int i, .int j => do
    if i.fmod j = 0 then return .int (i.fdiv j)
    let x ← finite a
    let y ← finite b
    return .float (x / y)
  | pow, .int i, .int j =>
    if 0 ≤ j then .ok (.int (Int.pow i j.toNat)) else .ok (.float (Decimal.pow a.toFloat b.toFloat))
  | pow, a, b => .ok (.float (Decimal.pow a.toFloat b.toFloat))
  | bitAnd, a, b => .ok (.int (andBits a.toInt b.toInt))
  | bitOr, a, b => .ok (.int (orBits a.toInt b.toInt))
  | bitXor, a, b => .ok (.int (xorBits a.toInt b.toInt))
  | op, a, b => do
    let x ← finite a
    let y ← finite b
    return .float (onFloats op x y)

def negate : Number → Number
  | .int i => .int (-i)
  | .float f => .float (-f)

end Arithmetic
end Stencil
