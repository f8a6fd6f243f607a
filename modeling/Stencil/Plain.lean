import Stencil.Datum
import Stencil.Decimal.Reader

/-!
# Plain data

What the embedding program gives to templates and gets back from them: scalars, lists, maps and its
own objects.  A map has no order; `Plain.toValue` makes a dict of it whose keys are sorted as they
print, so the value does not depend on the order in which the entries come.  A list that was never
made is told apart from an empty one (`unset`); a map that was never made is taken for an empty map.

A record may be handed over itself, and not only a reference to it.  It is copied then, and every
copy is in a place of its own.
-/

namespace Stencil

inductive Plain
  | null
  | bool (b : Bool)
  | int (i : Int)
  | float (f : Float)
  | text (s : String)
  | list (element : String) (items : List Plain)
  /-- A list that was never made: it is empty, but written as nothing. -/
  | unset
  | map (keys values : List Plain)
  /-- A reference to an object, or an object that is not a record. -/
  | object (o : Object)
  | record (o : Object)
  /-- A reference that leads nowhere.  It is null; the object only says what it would lead to. -/
  | nowhere (o : Object)
  | value (v : Value)
  deriving Inhabited

def Plain.anything : String := "interface \x7b\x7d"

/-! ## To values -/

namespace Act

/-- A new dict of the given entries, sorted by their keys as they print.  Keys that cannot be keys
are left out. -/
def dictOfEntries (entries : List (Value × Value)) : Act Value := do
  let s ← get
  let printed := entries.map fun (k, v) => ((s.view k).print, k, v)
  let sorted := printed.mergeSort fun a b => a.1 ≤ b.1
  let hashable := sorted.filter fun (_, k, _) => k.unhashable?.isNone
  newDict (Entries.merge [] (hashable.map (·.2)))

end Act

namespace Plain

mutual

def toValue : Plain → Act Value
  | null => return .null
  | bool b => return .bool b
  | int i => return .int i
  | float f => return .float f
  | text s => return .text s
  | list _ items => do Act.newList (← toValues items)
  | unset => Act.newList []
  | map keys values => do
    let ks ← toValues keys
    let vs ← toValues values
    Act.dictOfEntries (ks.zip vs)
  | object o => Act.handle o
  | record o => Act.handleOfCopy o
  | nowhere _ => return .null
  | value v => return v

def toValues : List Plain → Act (List Value)
  | [] => return []
  | p :: ps => do return (← toValue p) :: (← toValues ps)

end

/-- The dict of named data, such as the variables a template is rendered with. -/
def context (entries : List (String × Plain)) : Act Value :=
  toValue (.map (entries.map fun e => .text e.1) (entries.map (·.2)))

end Plain

/-! ## From values -/

/-- Entries of a map; of two with the same key the later one counts. -/
def lastWins (entries : List (String × Plain)) : List (String × Plain) :=
  entries.foldl (fun acc (k, v) => acc.filter (·.1 != k) ++ [(k, v)]) []

def Plain.ofEntries (entries : List (String × Plain)) : Plain :=
  .map (entries.map fun e => .text e.1) (entries.map (·.2))

namespace Datum

mutual

/-- The plain data of a value.  Integers that do not fit into 64 bits become texts, and so do sets,
templates and methods. -/
def toPlain : Datum → Plain
  | null => .null
  | bool b => .bool b
  | int i => if Decimal.fitsInt64 i then .int i else .text (toString i)
  | float f => .float f
  | text s => .text s
  | tuple items => .list Plain.anything (toPlains items)
  | list items => .list Plain.anything (toPlains items)
  | dict keys values => .ofEntries (lastWins ((keys.map print).zip (toPlains values)))
  | object o => .object o
  | d => .text (repr d)

def toPlains : List Datum → List Plain
  | [] => []
  | d :: ds => toPlain d :: toPlains ds

end

end Datum

namespace Act

/-- The plain data of a value, of which there is none if the value contains itself. -/
def toPlain (v : Value) : Act Plain := do
  let d := (← get).view v
  if d.endless true then throw .stuck else return d.toPlain

end Act
end Stencil
