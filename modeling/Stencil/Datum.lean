import Stencil.Store
import Stencil.Decimal.Layout

/-!
# Values written out

A `Datum` is a value with its containers written out: the tree one sees when one follows every
reference.  It is what printing works on.

`Value.view` follows references one level deep, given how to see what they lead to, and `Store.view`
repeats that.  A container that is met again below itself is hidden.  A dict below lists and tuples
alone starts afresh, for it is written as it would be on its own; so a path meets each container at most
twice, and following two references for each container sees everything.

There are two ways to print.  `Datum.print` is what a template shows: lists and tuples as their items
with commas between them.  `Datum.repr` is how a value looks inside a dict.  What stands inside a dict is
hidden when it is met again, but a template goes on showing the items of a list that contains itself and
never comes to an end (`Datum.endless`); `Act.print` is stuck then.
-/

namespace Stencil

open Text (quoted)

/-- A value with its containers written out. -/
inductive Datum
  | null
  | bool (b : Bool)
  | int (i : Int)
  | float (f : Float)
  | text (s : String)
  | tuple (items : List Datum)
  | list (items : List Datum)
  | dict (keys values : List Datum)
  | set (items : List Datum)
  | object (o : Object)
  | template (name unit : String)
  | method (name : String)
  /-- A container that is met again below itself, and how it looks there. -/
  | hidden (shown : String)
  deriving Inhabited

/-! ## Following references -/

namespace Value

mutual

def view (lists dicts sets : Nat → Datum) : Value → Datum
  | null => .null
  | bool b => .bool b
  | int i => .int i
  | float f => .float f
  | text s => .text s
  | tuple items => .tuple (viewAll lists dicts sets items)
  | list r => lists r
  | dict r => dicts r
  | set r => sets r
  | object _ o => .object o
  | template name unit => .template name unit
  | method _ name _ => .method name

def viewAll (lists dicts sets : Nat → Datum) : List Value → List Datum
  | [] => []
  | v :: vs => view lists dicts sets v :: viewAll lists dicts sets vs

end

end Value

inductive Place
  | list (ref : Nat)
  | dict (ref : Nat)
  | set (ref : Nat)
  deriving DecidableEq, Repr

namespace Place

def isList : Place → Bool
  | list _ => true
  | _ => false

/-- The containers above what stands in one, as far as they matter. -/
def under (place : Place) (path : List Place) : List Place :=
  match place with
  | dict _ => if path.all isList then [place] else place :: path
  | _ => place :: path

def hidden : Place → Datum
  | list _ => .hidden "[...]"
  | dict _ => .hidden "\x7b...\x7d"
  | set _ => .hidden "set([...])"

end Place

namespace Store

def written (s : Store) (see : Value → Datum) : Place → Datum
  | .list r => .list ((s.list r).map see)
  | .dict r => .dict ((s.dict r).keys.map see) ((s.dict r).values.map see)
  | .set r => .set ((s.set r).map see)

/-- A value below the containers of a path, with references followed at most `depth` times in a
row. -/
def viewWithin (s : Store) : Nat → List Place → Value → Datum
  | 0, _ => Value.view (fun r => Place.hidden (.list r)) (fun r => Place.hidden (.dict r))
      (fun r => Place.hidden (.set r))
  | depth + 1, path =>
    let seen (place : Place) : Datum :=
      if place ∈ path then place.hidden else s.written (viewWithin s depth (place.under path)) place
    Value.view (fun r => seen (.list r)) (fun r => seen (.dict r)) (fun r => seen (.set r))

def view (s : Store) (v : Value) : Datum := s.viewWithin (2 * s.size + 2) [] v

theorem view_text (s : Store) (t : String) : s.view (.text t) = .text t := rfl

end Store

/-! ## Numbers on paper -/

/-- A float as a template shows it: positionally, and with an exponent and fifteen digits from
`10 ^ 15` on. -/
def shownFloat (f : Float) : String :=
  if f.isNaN then "NAN"
  else if f.isInf then (if 0 < f then "INF" else "-INF")
  else if 1e15 ≤ f.abs then
    Decimal.signed (Decimal.isNegative f) (Decimal.Layout.scientific.chars (Decimal.significant f 15))
  else Decimal.Layout.positional.print f

/-- A float as it looks inside a dict: it always shows that it is one. -/
def writtenFloat (f : Float) : String :=
  if f.isNaN then "nan"
  else if f.isInf then (if 0 < f then "+inf" else "-inf")
  else
    let s := Decimal.Layout.general.print f
    if s.toList.any (fun c => c == '.' || c == 'e') then s else s ++ ".0"

/-! ## Printing -/

namespace Datum

def commas (parts : List String) : String := String.intercalate ", " parts

mutual

def repr : Datum → String
  | null => "None"
  | bool b => if b then "True" else "False"
  | int i => toString i
  | float f => writtenFloat f
  | text s => quoted s
  | tuple items => match items with
    | [d] => "(" ++ repr d ++ ",)"
    | ds => "(" ++ commas (reprAll ds) ++ ")"
  | list items => "[" ++ commas (reprAll items) ++ "]"
  | dict keys values =>
    "\x7b" ++ commas (List.zipWith (fun k v => k ++ ": " ++ v) (reprAll keys) (reprAll values)) ++ "\x7d"
  | set items => "set([" ++ commas (reprAll items) ++ "])"
  | object o => o.shown
  | template name _ => "<template " ++ quoted name ++ ">"
  | method name => "<built-in method " ++ name ++ " of set value>"
  | hidden shown => shown

def reprAll : List Datum → List String
  | [] => []
  | d :: ds => repr d :: reprAll ds

end

mutual

def print : Datum → String
  | null => ""
  | bool b => if b then "true" else "false"
  | int i => toString i
  | float f => shownFloat f
  | text s => s
  | tuple items => commas (printAll items)
  | list items => commas (printAll items)
  | template name _ => name
  | d => repr d

def printAll : List Datum → List String
  | [] => []
  | d :: ds => print d :: printAll ds

end

mutual

/-- Whether one never comes to an end by following lists and tuples, and dicts as well if asked to. -/
def endless (dicts : Bool) : Datum → Bool
  | tuple items => someEndless dicts items
  | list items => someEndless dicts items
  | dict _ values => dicts && someEndless dicts values
  | hidden _ => true
  | _ => false

def someEndless (dicts : Bool) : List Datum → Bool
  | [] => false
  | d :: ds => endless dicts d || someEndless dicts ds

end

end Datum

namespace Act

def print (v : Value) : Act String := do
  let d := (← get).view v
  if d.endless false then throw .stuck else return d.print

end Act
end Stencil
