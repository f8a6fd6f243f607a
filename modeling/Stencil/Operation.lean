import Stencil.Arithmetic
import Stencil.Scope
import Stencil.Text.Blank

/-!
# Operators on values

Operators take operands of any type.  Arithmetic turns them into numbers: booleans, null and texts
that hold a number count as numbers, everything else as zero.  Comparing values of different types,
or calculating with values that are no numbers, is an error with strict types.
-/

namespace Stencil

/-! ## Numbers -/

def numberOfText? (s : String) : Option Number :=
  let t := Text.trimBlank s
  match Decimal.int64? t with
  | some i => some (.int i)
  | none => (Decimal.float? t).map .float

def Value.toNumber? : Value → Option Number
  | .null => some (.int 0)
  | .bool b => some (.int (if b then 1 else 0))
  | .int i => some (.int i)
  | .float f => some (.float f)
  | .text s => numberOfText? s
  | _ => none

/-- An integer that fits into 64 bits, and zero for one that does not. -/
def int64OrZero (i : Int) : Int := if Decimal.fitsInt64 i then i else 0

namespace Scope

/-- The number an operand counts as; `other` is the other operand, which is named when it is none. -/
def number (scope : Scope) (v other : Value) (symbol : String) : Act Number :=
  match v.toNumber? with
  | some n => return n
  | none =>
    if scope.options.strictTypes then
      scope.raise 0 (.operands v.typeName other.typeName symbol) none
    else return .int 0

/-! ## Calculating -/

def calculate (scope : Scope) (op : Arithmetic) (a b : Value) : Act Value := do
  let x ← scope.number a b op.symbol
  let y ← scope.number b a op.symbol
  if op.divides && y.isZero then scope.raise 0 .divisionByZero none
  else match op.apply x y with
    | .ok n => return .ofNumber n
    | .error f => throw f

def negate (scope : Scope) (v : Value) : Act Value := do
  return .ofNumber (Arithmetic.negate (← scope.number v (.int 0) "-"))

def positive (scope : Scope) (v : Value) : Act Value := do
  return .ofNumber (← scope.number v (.int 0) "+")

/-! ## Comparing -/

def sameObject (o p : Object) : Bool :=
  match o.sameness, p.sameness with
  | .place a, .place b => a == b
  | .content a, .content b => a == b
  | _, _ => false

/-- Whether two values are equal.  Null may be compared with anything. -/
def equal (scope : Scope) (a b : Value) : Act Bool :=
  if a.isNull || b.isNull then return a.isNull && b.isNull
  else if a.sort != b.sort then
    if scope.options.strictTypes then
      scope.raise 0 (.typeMismatch a.typeName b.typeName) none
    else return false
  else match a, b with
    | .object _ o, .object _ p => return sameObject o p
    | a, b => do
      match (← get).compare .eq a b with
      | .ok r => return r
      | .error f => scope.raise 0 (.incomparable a.typeName) (some f)

def isOrdered : Value → Bool
  | .int _ => true
  | .float _ => true
  | .text _ => true
  | .bool _ => true
  | .list _ => true
  | .tuple _ => true
  | _ => false

/-- What two values of different types are compared as: numbers if both are, else texts. -/
def common (a b : Value) : Act (Value × Value) := do
  match a.toNumber?, b.toNumber? with
  | some x, some y => return (.ofNumber x, .ofNumber y)
  | _, _ => return (.text (← Act.print a), .text (← Act.print b))

def orderSame (scope : Scope) (r : Relation) (a b : Value) : Act Bool := do
  if !isOrdered a then scope.raise 0 (.unordered a.typeName) none
  else match (← get).compare r a b with
    | .ok answer => return answer
    | .error f => scope.raise 0 (.orderFailed a.typeName) (some f)

def order (scope : Scope) (r : Relation) (a b : Value) : Act Bool :=
  if a.sort == b.sort then scope.orderSame r a b
  else if scope.options.strictTypes then
    scope.raise 0 (.typeMismatch a.typeName b.typeName) none
  else do
    let (a, b) ← common a b
    scope.orderSame r a b

def relate (scope : Scope) (r : Relation) (a b : Value) : Act Bool :=
  match r with
  | .eq => scope.equal a b
  | .ne => do return !(← scope.equal a b)
  | r => scope.order r a b

end Scope

/-! ## Ranges -/

namespace Range

def ints (low step : Int) : Nat → List Value
  | 0 => []
  | count + 1 => .int low :: ints (low + step) step count

/-- How many integers there are from `low` to `high`, both included, `step` apart. -/
def count (low high step : Int) : Nat := ((high - low).natAbs / step.natAbs) + 1

/-- An integer in 64 bits: one that does not fit comes back on the other side. -/
def wrap (i : Int) : Int := i.bmod 0x10000000000000000

/-- How many integers there are in 64 bits.  A walk that takes more rounds comes back to where it has
been, and never ends. -/
def words : Nat := 0x10000000000000000

/-- The integers from `x` on, `step` apart, until `high` is passed.  The sums are taken in 64 bits;
nothing comes of it when `high` is not passed in time. -/
def walk (high step : Int) : Nat → Int → Option (List Int)
  | 0, _ => none
  | rounds + 1, x =>
    if (0 < step && x ≤ high) || (step < 0 && high ≤ x) then do
      return x :: (← walk high step rounds (wrap (x + step)))
    else some []

/-- The character of a code point; a code point that is no character gives the one that stands for
it. -/
def charOf (n : Int) : Char :=
  if 0xd800 ≤ n && n ≤ 0xdfff then Char.ofNat 0xfffd else Char.ofNat n.toNat

/-- The doubles from `x` on, at most `fuel` of them, until `high` is passed. -/
def floats (high step : Float) : Nat → Float → List Value
  | 0, _ => []
  | fuel + 1, x =>
    if (0 < step && x ≤ high) || (step < 0 && high ≤ x) then
      .float x :: floats high step fuel (x + step)
    else []

def enough (low high step : Float) : Nat :=
  let n := ((high - low) / step).abs
  (if n.isFinite then 2 * (Decimal.truncate n).toNat else 0) + 16

end Range

def singleChar? (s : String) : Option Char :=
  match s.toList with
  | [c] => some c
  | _ => none

namespace Scope

def charRange (scope : Scope) (low high : Char) (step : Value) : Act (List Value) :=
  let size : Int := match step.toNumber? with
    | some n => (Number.float n.toFloat.abs).toInt
    | none => 1
  if size = 0 then scope.raise 0 .zeroStep none
  else
    let a : Int := low.toNat
    let z : Int := high.toNat
    let step := if z < a then -size else size
    return (Range.ints a step (Range.count a z step)).map fun
      | .int i => .text (String.singleton (Range.charOf i))
      | v => v

/-- The range of numbers from one to another.  Integers are taken in 64 bits, where the opposite of the
least one is itself: as a step it always goes down. -/
def numberRange (scope : Scope) (low high step : Number) : Act (List Value) :=
  match low, high, step with
  | .int a, .int z, .int s =>
    let a := int64OrZero a
    let z := int64OrZero z
    let size := Range.wrap (int64OrZero s).natAbs
    if size = 0 then scope.raise 0 .zeroStep none
    else match Range.walk z (if z < a then Range.wrap (-size) else size) Range.words a with
      | some items => return items.map .int
      | none => throw .stuck
  | low, high, step =>
    let a := low.toFloat
    let z := high.toFloat
    let size := step.toFloat.abs
    if size == 0 then scope.raise 0 .zeroStep none
    else
      let step := if z < a then -size else size
      return Range.floats z step (Range.enough a z step) a

/-- The range from one value to another, both included.  It goes up or down, whichever way the end
lies, and through characters when both are texts of one character. -/
def range (scope : Scope) (low high step : Value) : Act Value := do
  let ends : Option (Char × Char) := match low, high with
    | .text a, .text z => do return (← singleChar? a, ← singleChar? z)
    | _, _ => none
  match ends with
  | some (a, z) => Act.newList (← scope.charRange a z step)
  | none =>
    let a ← scope.number low high ".."
    let z ← scope.number high low ".."
    let s ← scope.number step low ".."
    Act.newList (← scope.numberRange a z s)

end Scope
end Stencil
