import Stencil.Compare
import Stencil.Datum
import Stencil.Text.Search

/-!
# Values as sequences and as truths

`pairs` is what a loop sees of a value: the entries of a dict, and the items of lists, tuples and
sets with their positions.  Texts and other values have none.
-/

namespace Stencil

def numbered (i : Nat) : List Value → List (Value × Value)
  | [] => []
  | v :: vs => (.int i, v) :: numbered (i + 1) vs

namespace Store

def pairs (s : Store) : Value → List (Value × Value)
  | .dict r => s.dict r
  | .list r => numbered 0 (s.list r)
  | .tuple items => numbered 0 items
  | .set r => numbered 0 (s.set r)
  | _ => []

/-- What iterating over a value gives: the keys of a dict, the items of other containers.  Nothing
for a value that is no container. -/
def items? (s : Store) : Value → Option (List Value)
  | .dict r => some (s.dict r).keys
  | .list r => some (s.list r)
  | .tuple items => some items
  | .set r => some (s.set r)
  | _ => none

def truth (s : Store) : Value → Bool
  | .null => false
  | .bool b => b
  | .int i => i != 0
  | .float f => f != 0
  | .text t => t != "" && t != "0"
  | .list r => !(s.list r).isEmpty
  | .tuple items => !items.isEmpty
  | .dict r => !(s.dict r).isEmpty
  | .set r => !(s.set r).isEmpty
  | _ => true

def isEmpty (s : Store) : Value → Bool
  | .null => true
  | .bool b => !b
  | .text t => t == ""
  | .list r => (s.list r).isEmpty
  | .tuple items => items.isEmpty
  | .dict r => (s.dict r).isEmpty
  | .set r => (s.set r).isEmpty
  | _ => false

/-- How many items a list, tuple or dict has. -/
def count? (s : Store) : Value → Option Nat
  | .list r => some (s.list r).length
  | .tuple items => some items.length
  | .dict r => some (s.dict r).length
  | _ => none

/-- Whether a value is in another: a text in a text, or a value among the values of a dict or the
items of a list or tuple. -/
def contains (s : Store) (haystack needle : Value) : Bool :=
  match haystack with
  | .text t => Text.contains t (s.view needle).print
  | .dict r => (s.dict r).values.any fun v => s.same v needle
  | .list r => (s.list r).any fun v => s.same v needle
  | .tuple items => items.any fun v => s.same v needle
  | _ => false

end Store

namespace Act

def iterate (v : Value) : Act Value := do
  newList (((← get).pairs v).map fun (k, v) => .tuple [k, v])

def valuesOf (v : Value) : Act (List Value) := return ((← get).pairs v).map (·.2)

end Act
end Stencil
