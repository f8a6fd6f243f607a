import Stencil.Number
import Stencil.Failure

/-!
# Values

What expressions evaluate to.  Scalars and tuples are values by themselves; lists, dicts and sets
are references into a store, so that a change is seen through every name of the container.

Two kinds of value come from outside: objects of the program that embeds the templates, and
templates.  An object is seen through a handle; two handles may lead to the same object.  A method
of a set that has been looked up but not called is a value too, and a new one each time.
-/

namespace Stencil

/-- The place of an object: where it always was, or where a copy of it was put. -/
inductive Address
  | fixed (target : Nat)
  | copy (number : Nat)
  deriving DecidableEq, Repr

/-- When two objects of one type are equal. -/
inductive Sameness
  | place (address : Address)
  | content (key : String)
  | never
  deriving DecidableEq, Repr

structure Object where
  target : Nat
  typeName : String
  shown : String
  sameness : Sameness
  deriving DecidableEq, Repr

inductive Value
  | null
  | bool (b : Bool)
  | int (i : Int)
  | float (f : Float)
  | text (s : String)
  | tuple (items : List Value)
  | list (ref : Nat)
  | dict (ref : Nat)
  | set (ref : Nat)
  | object (handle : Nat) (o : Object)
  | template (name unit : String)
  | method (handle : Nat) (name : String) (owner : Nat)
  deriving Inhabited

namespace Value

/-! ## Types -/

def type : Value → String
  | null => "NoneType"
  | bool _ => "bool"
  | int _ => "int"
  | float _ => "float"
  | text _ => "string"
  | tuple _ => "tuple"
  | list _ => "list"
  | dict _ => "dict"
  | set _ => "set"
  | object _ o => o.typeName
  | template _ _ => "template"
  | method _ _ _ => "builtin_function_or_method"

/-- The type of a value as messages of templates name it. -/
def typeName : Value → String
  | null => "null"
  | template _ _ => "Template"
  | v => v.type

/-- The group of types a value compares with: all numbers are one group. -/
def sort : Value → String
  | int _ => "number"
  | float _ => "number"
  | v => v.typeName

def isNull : Value → Bool
  | null => true
  | _ => false

def isSequence : Value → Bool
  | list _ => true
  | tuple _ => true
  | _ => false

def isContainer : Value → Bool
  | dict _ => true
  | v => v.isSequence

def isScalar : Value → Bool
  | bool _ => true
  | int _ => true
  | float _ => true
  | text _ => true
  | _ => false

def ofNumber : Number → Value
  | .int i => int i
  | .float f => float f

def number? : Value → Option Number
  | int i => some (.int i)
  | float f => some (.float f)
  | _ => none

/-! ## Keys -/

mutual

/-- The first type inside a value that cannot be a key. -/
def unhashable? : Value → Option String
  | list _ => some "list"
  | dict _ => some "dict"
  | set _ => some "set"
  | object _ o => some o.typeName
  | tuple items => firstUnhashable? items
  | _ => none

/-- The first type inside several values that cannot be a key. -/
def firstUnhashable? : List Value → Option String
  | [] => none
  | v :: vs => (unhashable? v).or (firstUnhashable? vs)

end

def comparisonDepth : Nat := 10

def tooDeep : Failure := .plain "comparison exceeded maximum recursion depth"

/-- Whether two values other than tuples are the same key.  Numbers are the same when their values
are. -/
def sameScalar : Value → Value → Bool
  | null, null => true
  | bool a, bool b => a == b
  | int i, int j => i == j
  | int i, float f => Number.compareMixed i f == .eq
  | float f, int i => Number.compareMixed i f == .eq
  | float f, float g => Number.compareFloats f g == .eq
  | text s, text t => s == t
  | template _ a, template _ b => a == b
  | method a _ _, method b _ _ => a == b
  | _, _ => false

def allSame (same : Value → Value → Except Failure Bool) :
    List Value → List Value → Except Failure Bool
  | x :: xs, y :: ys => do if ← same x y then allSame same xs ys else return false
  | _, _ => .ok true

/-- Whether two values are the same key, looking at most `depth` levels deep. -/
def sameWithin : Nat → Value → Value → Except Failure Bool
  | 0, _, _ => .error tooDeep
  | depth + 1, x, y =>
    match x, y with
    | tuple xs, tuple ys =>
      if xs.length = ys.length then allSame (sameWithin depth) xs ys else .ok false
    | x, y => .ok (x.sameScalar y)

def digestOfText (s : String) : UInt32 :=
  s.toUTF8.toList.foldl (fun h b => (UInt32.xor h b.toUInt32) * 16777619) 2166136261

/-- The digest of an integer: it depends on its low 32 bits, those of its size when it needs more. -/
def digestOfInt (i : Int) : UInt32 :=
  let low : Int := if -0x80000000 ≤ i && i < 0x80000000 then i else i.natAbs
  12582917 * (UInt32.ofNat (low % 0x100000000).toNat + 3)

mutual

/-- A number that is the same for keys that are the same.  Doubles have the digest of their integral
part. -/
def digest : Value → UInt32
  | null => 0
  | bool b => if b then 1 else 0
  | int i => digestOfInt i
  | float f => if f.isFinite then digestOfInt (Decimal.truncate f) else 1618033
  | text s => digestOfText s
  | tuple items => digestOfItems (82520 + 2 * UInt32.ofNat items.length) 0x345678 1000003 items
  | template _ unit => digestOfText unit
  | method _ name _ => UInt32.xor (digestOfText name) 5521
  | _ => 0

/-- The digest of several values after `h`.  Each counts with a weight of its own. -/
def digestOfItems (step h weight : UInt32) : List Value → UInt32
  | [] => h
  | v :: vs => digestOfItems step (UInt32.xor h (digest v * weight)) (weight + step) vs

end

/-- Whether two values are the same key.  Tuples with different digests are told apart without being
compared; to compare those with the same digest fails when they are too deep. -/
def sameKey (x y : Value) : Except Failure Bool :=
  match x, y with
  | tuple _, tuple _ => if x.digest == y.digest then sameWithin comparisonDepth x y else .ok false
  | x, y => .ok (x.sameScalar y)

end Value
end Stencil
