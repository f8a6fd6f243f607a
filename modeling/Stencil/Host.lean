import Stencil.Plain

/-!
# Objects of the embedding program

A `Host` knows what its objects are made of: records with named fields, numbers with methods, points
in time, and objects of which nothing is known but their methods.

A record may be built on others, which are then fields of it: the records themselves, or references to
them that may lead nowhere.  Their fields and methods are its own as well.  Of several with the same name
the one that stands least deep counts, if it is the only one there (`Host.shallowest`); a method also
gives way to a field.  What stands in a record that is not there can be found but not reached.

Methods take plain data of certain shapes, and come to an end with results or with an error.  `fit?` says whether some data has a shape and converts
it: numbers into other numbers, null into the empty thing of any shape.  `accepts` checks all
arguments of a call in this way, and `call` makes it; each counts the parameters in its own way.  Nothing
comes of checking data that contains itself, or of making an array of too short a list
(`Host.stalls`).
-/

namespace Stencil

inductive Shape
  | anything
  | text
  | bool
  | int (bits : Nat)
  | float
  | items
  | mapping
  | bytes
  | array (length : Nat)
  | object (typeName : String)
  deriving DecidableEq, Repr

/-- Whether nothing comes of giving a value this shape. -/
def Shape.stalls (shape : Shape) (d : Datum) : Bool :=
  d.endless true || match shape, d with
    | .array n, .list ds => ds.length < n
    | .array n, .tuple ds => ds.length < n
    | _, _ => false

namespace Host

/-- A method of an object.  It takes the object and the arguments, and gives any number of results
or the text of an error. -/
structure Method where
  name : String
  parameters : List Shape
  rest : Option Shape
  /-- What it does.  It can look up the fields of any object. -/
  run : (Object → String → Option Plain) → Object → List Plain → Except String (List Plain)

structure Field where
  name : String
  value : Plain
  /-- Whether the record is built on what this field holds. -/
  base : Bool

/-- An object or a record it is built on, and whether that is there. -/
structure Part where
  object : Object
  there : Bool

/-- What a field adds to the record it is a field of, which is there or not. -/
def Field.part? (there : Bool) (f : Field) : Option Part :=
  match f.base, f.value with
  | true, .record o => some ⟨o, there⟩
  | true, .object o => some ⟨o, there⟩
  | true, .nowhere o => some ⟨o, false⟩
  | _, _ => none

inductive Body
  | record (fields : List Field)
  | number (i : Int)
  /-- A point in time; the text is how it is written for other programs. -/
  | moment (stamp : String)
  | unknown

structure Thing where
  body : Body
  methods : List Method

def Thing.fields (t : Thing) : List Field :=
  match t.body with
  | .record fields => fields
  | _ => []

end Host

structure Host where
  things : Array Host.Thing

namespace Host

def empty : Host := ⟨#[]⟩

def thing (h : Host) (target : Nat) : Thing := (h.things[target]?).getD ⟨.unknown, []⟩

def bases (h : Host) (p : Part) : List Part :=
  (h.thing p.object.target).fields.filterMap (Field.part? p.there)

/-! ## Members -/

/-- What some parts declare, or else what the parts that these are built on do, at most `depth` levels
deep.  What is declared twice on one level counts for nothing. -/
def shallowest {α : Type} (h : Host) (declared? : Part → Option α) : Nat → List Part → Option α
  | 0, _ => none
  | depth + 1, parts =>
    match parts.filterMap declared? with
    | [] => shallowest h declared? depth (parts.flatMap h.bases)
    | [a] => some a
    | _ => none

def fieldOf? (h : Host) (name : String) (p : Part) : Option (Plain × Bool) :=
  ((h.thing p.object.target).fields.find? (·.name == name)).map fun f => (f.value, p.there)

/-- A field of an object, and whether it can be reached. -/
def member? (h : Host) (o : Object) (name : String) : Option (Plain × Bool) :=
  h.shallowest (h.fieldOf? name) (h.things.size + 1) [⟨o, true⟩]

def field? (h : Host) (o : Object) (name : String) : Option Plain :=
  ((h.member? o name).filter (·.2)).map (·.1)

/-- A method of a part, or nothing where a field has the name. -/
def methodOf? (h : Host) (name : String) (p : Part) : Option (Option (Object × Method)) :=
  match (h.thing p.object.target).methods.find? (·.name == name) with
  | some m => some (some (p.object, m))
  | none => (h.fieldOf? name p).map fun _ => none

def method? (h : Host) (o : Object) (name : String) : Option (Object × Method) :=
  (h.shallowest (h.methodOf? name) (h.things.size + 1) [⟨o, true⟩]).join

/-! ## Arguments -/

def wrap (bits : Nat) (i : Int) : Int := i.bmod (Decimal.twoPow bits)

def blank : Shape → Plain
  | .anything => .null
  | .text => .text ""
  | .bool => .bool false
  | .int _ => .int 0
  | .float => .float 0.0
  | .items => .list Plain.anything []
  | .mapping => .map [] []
  | .bytes => .text ""
  | .array n => .list Plain.anything (List.replicate n .null)
  | .object _ => .null

def number? (h : Host) : Plain → Option Number
  | .int i => some (.int i)
  | .float f => some (.float f)
  | .object o => match (h.thing o.target).body with
    | .number i => some (.int i)
    | _ => none
  | _ => none

def fit? (h : Host) (shape : Shape) (p : Plain) : Option Plain :=
  match shape, p with
  | shape, .null => some (blank shape)
  | .anything, p => some p
  | .text, .text s => some (.text s)
  | .bool, .bool b => some (.bool b)
  | .int bits, p => (h.number? p).map fun n => .int (wrap bits n.toInt)
  | .float, p => (h.number? p).map fun n => .float n.toFloat
  | .items, .list element items => some (.list element items)
  | .mapping, .map keys values => some (.map keys values)
  | .array n, .list element items =>
    if n ≤ items.length then some (.list element (items.take n)) else none
  | .object typeName, .object o => if o.typeName == typeName then some (.object o) else none
  | _, _ => none

namespace Method

/-- A parameter as a method declares it.  The last one may stand for all further arguments. -/
inductive Input
  | one (shape : Shape)
  | rest (element : Shape)

def Input.whole? : Input → Option Shape
  | one shape => some shape
  | rest _ => none

def Input.element? : Input → Option Shape
  | one _ => none
  | rest element => some element

def inputs (m : Method) : List Input := m.parameters.map .one ++ m.rest.toList.map .rest

/-- How many parameters take one argument each. -/
def fixed (m : Method) : Nat := if m.rest.isSome then m.inputs.length - 1 else m.inputs.length

/-- The shape that an argument has to have for the method to be chosen. -/
def probedShape (m : Method) (i : Nat) : Option Shape :=
  (m.inputs[min i (m.inputs.length - 1)]?).bind fun input =>
    if m.fixed ≤ i then input.element? else input.whole?

/-- The shape an argument is given when the method is called. -/
def calledShape (m : Method) (i : Nat) : Option Shape :=
  if m.rest.isSome && m.inputs.length - 1 ≤ i then (m.inputs[m.inputs.length - 1]?).bind Input.element?
  else (m.inputs[i]?).bind Input.whole?

end Method

def fitFrom (h : Host) (shapeAt : Nat → Option Shape) : Nat → List Plain → Option (List Plain)
  | _, [] => some []
  | i, p :: ps => do
    let shape ← shapeAt i
    let p ← h.fit? shape p
    let ps ← fitFrom h shapeAt (i + 1) ps
    return p :: ps

/-- Whether a method takes so many arguments. -/
def Method.counts (m : Method) (n : Nat) : Bool := if m.rest.isSome then m.fixed ≤ n else n == m.fixed

def accepts (h : Host) (m : Method) (args : List Plain) : Bool :=
  m.counts args.length && (h.fitFrom m.probedShape 0 args).isSome

def stallsFrom (h : Host) (shapeAt : Nat → Option Shape) : Nat → List Datum → Bool
  | _, [] => false
  | i, d :: ds =>
    match shapeAt i with
    | none => false
    | some shape => shape.stalls d || ((h.fit? shape d.toPlain).isSome && stallsFrom h shapeAt (i + 1) ds)

/-- Whether nothing comes of checking the arguments of a call: they are checked in turn, up to the first
one that does not fit. -/
def stalls (h : Host) (m : Method) (args : List Datum) : Bool :=
  m.counts args.length && h.stallsFrom m.probedShape 0 args

inductive CallFailure
  | count
  | argument
  | thrown (text : String)
  deriving DecidableEq, Repr

def call (h : Host) (receiver : Object) (m : Method) (args : List Plain) :
    Except CallFailure (List Plain) :=
  if (if m.rest.isSome then args.length < m.inputs.length - 1 else args.length ≠ m.inputs.length) then
    .error .count
  else match h.fitFrom m.calledShape 0 args with
    | none => .error .argument
    | some args => (m.run h.field? receiver args).mapError .thrown

def CallFailure.message : CallFailure → String
  | count => "wrong number of arguments"
  | argument => "an argument does not fit"
  | thrown text => text

end Host

/-- The value of the results of a call: nothing is null, several are a tuple. -/
def Act.ofResults : List Plain → Act Value
  | [] => return .null
  | [p] => p.toValue
  | ps => return .tuple (← Plain.toValues ps)

end Stencil
