import Stencil.Store

/-!
# Comparing values

Values of different types are unequal and have no order, except that all numbers compare with each
other.  Lists and tuples are ordered by the first pair of unequal items, sets by inclusion; null,
dicts, objects and templates have no order at all.  Objects, templates and methods equal only
themselves.

Containers are compared at most ten levels deep, so comparing always ends.
-/

namespace Stencil

inductive Relation
  | eq
  | ne
  | lt
  | le
  | gt
  | ge
  deriving DecidableEq, Repr

namespace Relation

def symbol : Relation → String
  | eq => "=="
  | ne => "!="
  | lt => "<"
  | le => "<="
  | gt => ">"
  | ge => ">="

def holds : Relation → Ordering → Bool
  | eq, o => o == .eq
  | ne, o => o != .eq
  | lt, o => o == .lt
  | le, o => o != .gt
  | gt, o => o == .gt
  | ge, o => o != .lt

/-- The answer for things that have no order and are equal or not. -/
def ofEquality (r : Relation) (equal : Bool) (left right : String) : Except Failure Bool :=
  match r with
  | eq => .ok equal
  | ne => .ok (!equal)
  | r => .error (.plain s!"{left} {r.symbol} {right} not implemented")

end Relation

namespace Compare

abbrev Below := Relation → Value → Value → Except Failure Bool

/-- Whether two sequences are in a relation, given that they start in the same way. -/
def sequencesFrom (below : Below) (r : Relation) (lengths : Ordering) :
    List Value → List Value → Except Failure Bool
  | x :: xs, y :: ys => do
    if ← below .eq x y then sequencesFrom below r lengths xs ys
    else match r with
      | .eq => return false
      | .ne => return true
      | r => below r x y
  | _, _ => .ok (r.holds lengths)

/-- Whether two sequences are in a relation.  Sequences of different lengths are not equal. -/
def sequences (below : Below) (r : Relation) (xs ys : List Value) : Except Failure Bool :=
  let lengths := compare xs.length ys.length
  if lengths != .eq && (r == .eq || r == .ne) then .ok (r == .ne)
  else sequencesFrom below r lengths xs ys

/-- Whether every entry of a dict is in another dict, with an equal value. -/
def entriesIn (below : Below) (other : Entries) : Entries → Except Failure Bool
  | [] => .ok true
  | (k, v) :: rest =>
    match other.get? k with
    | none => .ok false
    | some w => do
      if ← below .eq v w then entriesIn below other rest else return false

def dictsEqual (below : Below) (xs ys : Entries) : Except Failure Bool :=
  if xs.length != ys.length then .ok false else entriesIn below ys xs

def sets (r : Relation) (x y : Table) : Except Failure Bool :=
  let lengths := compare x.entries.length y.entries.length
  match r with
  | .eq => .ok (x.equals y)
  | .ne => .ok (!x.equals y)
  | .ge => if lengths == .lt then .ok false else x.covers y.keys
  | .gt => if lengths == .gt then x.covers y.keys else .ok false
  | .le => if lengths == .gt then .ok false else x.isWithin y.keys
  | .lt => if lengths == .lt then x.isWithin y.keys else .ok false

def rank (b : Bool) : Nat := if b then 1 else 0

/-- Whether two values are in a relation, looking at most `depth` levels deep. -/
def within (s : Store) : Nat → Below
  | 0, _, _, _ => .error Value.tooDeep
  | depth + 1, r, x, y =>
    match x, y with
    | .null, .null => r.ofEquality true x.type y.type
    | .bool a, .bool b => .ok (r.holds (compare (rank a) (rank b)))
    | .int i, .int j => .ok (r.holds (compare i j))
    | .int i, .float g => .ok (r.holds (Number.compareMixed i g))
    | .float f, .int j => .ok (r.holds (Number.compareMixed j f).swap)
    | .float f, .float g => .ok (r.holds (Number.compareFloats f g))
    | .text a, .text b => .ok (r.holds (compare a b))
    | .list a, .list b => sequences (within s depth) r (s.list a) (s.list b)
    | .tuple a, .tuple b => sequences (within s depth) r a b
    | .dict a, .dict b => do
      let equal ← if r == .eq || r == .ne then dictsEqual (within s depth) (s.dict a) (s.dict b)
        else pure false
      r.ofEquality equal x.type y.type
    | .set a, .set b => sets r (s.table (.set a)) (s.table (.set b))
    | .object a o, .object b p => r.ofEquality (o.typeName == p.typeName && a == b) x.type y.type
    | .template _ a, .template _ b => r.ofEquality (a == b) x.type y.type
    | .method a _ _, .method b _ _ => r.ofEquality (a == b) x.type y.type
    | x, y => r.ofEquality false x.type y.type

end Compare

namespace Store

def compare (s : Store) (r : Relation) (x y : Value) : Except Failure Bool :=
  Compare.within s Value.comparisonDepth r x y

/-- Whether two values of one sort are equal, where a comparison that fails counts as unequal. -/
def same (s : Store) (x y : Value) : Bool :=
  x.sort == y.sort && match s.compare .eq x y with
    | .ok b => b
    | .error _ => false

end Store

namespace Act

def compare (r : Relation) (x y : Value) : Act Bool := do
  match (← get).compare r x y with
  | .ok b => return b
  | .error f => throw f

end Act
end Stencil
