import Stencil.Callable
import Stencil.Operation

/-!
# The tests of the language
-/

namespace Stencil.Language

open Arguments (needed)
open Callable (make)
open Text (quoted)

def testOf (name : String) (p : Store → Value → Bool) : Callable :=
  Callable.ofValue name fun v => return .bool (p (← get) v)

/-- The integer a test is applied to.  One that does not fit into 64 bits counts as zero. -/
def integerFor (name : String) (v : Value) : Act Int :=
  match v.toNumber? with
  | some (.int i) => return int64OrZero i
  | some (.float f) => return (Number.float f).toInt
  | none => Act.complain s!"The {quoted name} test expects a number, got {v.type}."

/-- `even` and `odd`: whether a number leaves a given rest when it is halved. -/
def parity (name : String) (rest : Nat) : Callable := Callable.ofValue name fun v => do
  return .bool ((← integerFor name v).natAbs % 2 == rest)

def divisibleBy : Callable :=
  make "divisible by" [needed "value", needed "num"] fun _ given => do
    let a ← integerFor "divisible by" (given.value 0 .null)
    let b ← integerFor "divisible by" (given.value 1 .null)
    if b = 0 then Act.complain "Division by zero."
    else return .bool (a % b == 0)

/-- Whether two values are one and the same: equal scalars of one type, or the very same container
or object.  For tuples there is no telling. -/
def identical (v w : Value) : Act Bool :=
  if v.type != w.type then return false
  else match v, w with
    | .list a, .list b => return a == b
    | .dict a, .dict b => return a == b
    | .set a, .set b => return a == b
    | .object a _, .object b _ => return a == b
    | .tuple _, .tuple _ => throw .stuck
    | v, w => do
      match (← get).compare .eq v w with
      | .ok r => return r
      | .error _ => return false

/-- `same as`: whether two values are one and the same. -/
def sameAs : Callable :=
  make "same as" [needed "value", needed "other"] fun _ given => do
    return .bool (← identical (given.value 0 .null) (given.value 1 .null))

def tests : List (String × Callable) :=
  [("defined", testOf "defined" fun _ v => !v.isNull),
   ("null", testOf "null" fun _ v => v.isNull),
   ("none", testOf "null" fun _ v => v.isNull),
   ("empty", testOf "empty" Store.isEmpty),
   ("even", parity "even" 0),
   ("odd", parity "odd" 1),
   ("iterable", testOf "iterable" fun _ v => v.isContainer),
   ("divisible by", divisibleBy),
   ("same as", sameAs)]

end Stencil.Language
