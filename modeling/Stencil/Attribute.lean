import Stencil.Node
import Stencil.Operation
import Stencil.Text.Camel

/-!
# Variables and attributes

Looking up a variable in the context, and an item, field or method of a value.

An attribute is looked for in this order: an item of a list, tuple or dict; then, unless a key was
asked for and unless the value is null or a scalar, a field of an object, and the methods of the name
itself and of the name after `Get`, `Is` and `Has`.  Methods of lists and dicts are found only when
they are called.

The result of a search is a `Found`.  What becomes of it depends on the mode: asked whether an
attribute is defined, the answer is yes or no; otherwise a failed search is null or an error.
-/

namespace Stencil

open Node (Access)

inductive Found
  | value (v : Value)
  | failed (cause : Failure) (member : String)
  | missing (reason : Raised)

/-! ## Items -/

def Value.index? : Value → Option Int
  | .bool b => some (if b then 1 else 0)
  | .int i => if Decimal.fitsInt64 i then some i else none
  | .float f => some (Number.float f).toInt
  | .text s => Decimal.int64? s
  | _ => none

/-- The other form of a key: a text that holds an integer, and an integer, are the same key. -/
def Value.otherKey? : Value → Option Value
  | .text s => (Decimal.int64? s).map .int
  | v => v.index?.map fun i => .text (toString i)

namespace Attribute

/-- The value under a key, where a key that cannot be one finds nothing. -/
def under? (es : Entries) (key : Value) : Option Value :=
  match key.unhashable? with
  | some _ => none
  | none => es.get? key

def at? (items : List Value) (item : Value) : Option Value := do
  let i ← item.index?
  if i < 0 then none else items[i.toNat]?

def item? (s : Store) (object item : Value) : Option Value :=
  match object with
  | .dict r =>
    let es := s.dict r
    (under? es item).or (item.otherKey?.bind (under? es))
  | .list r => at? (s.list r) item
  | .tuple items => at? items item
  | _ => none

/-! ## Members of objects -/

def memberNames (key : String) : List String :=
  let camel := Text.camel key
  if camel == key then [key] else [key, camel]

def methodNames (key : String) : List String :=
  let camel := Text.camel key
  memberNames key ++ ["Get" ++ camel, "Is" ++ camel, "Has" ++ camel]

def field? (h : Host) (o : Object) (key : String) : Option (Plain × Bool) :=
  (memberNames key).findSome? (h.member? o)

def method? (h : Host) (o : Object) (key : String) (args : List Plain) :
    Option (Object × Host.Method) :=
  (methodNames key).findSome? fun name => do
    let (receiver, m) ← h.method? o name
    if h.accepts m args then return (receiver, m) else none

/-- Whether nothing comes of trying the methods of some names in turn, up to the first one that accepts
the arguments. -/
def stalls (h : Host) (o : Object) (args : List Datum) : List String → Bool
  | [] => false
  | name :: names =>
    match h.method? o name with
    | none => stalls h o args names
    | some (_, m) => h.stalls m args || (!h.accepts m (args.map Datum.toPlain) && stalls h o args names)

def ofMethod (h : Host) (o : Object) (key : String) (args : List Datum) (otherwise : Raised) :
    Act Found :=
  if stalls h o args (methodNames key) then throw .stuck
  else match method? h o key (args.map Datum.toPlain) with
    | none => return .missing otherwise
    | some (receiver, m) =>
      match h.call receiver m (args.map Datum.toPlain) with
      | .ok results => return .value (← Act.ofResults results)
      | .error e => return .failed (.plain e.message) m.name

def ofObject (h : Host) (o : Object) (key : String) (args : List Datum) (access : Access)
    (otherwise : Raised) : Act Found :=
  match access, field? h o key with
  | .method, _ => ofMethod h o key args otherwise
  | _, some (p, there) => if there then return .value (← p.toValue) else throw .stuck
  | _, none => ofMethod h o key args otherwise

/-! ## Methods of containers -/

def isLoose : Value → Bool
  | .set _ => true
  | _ => false

def ofContainer (methods : Container.Methods) (v : Value) (key : String) (args : List Value)
    (access : Access) (otherwise : Raised) : Act Found :=
  match methods v key with
  | none => return .missing otherwise
  | some m =>
    if access == .method || (isLoose v && !args.isEmpty) then
      tryCatch (return .value (← m args)) fun f =>
        if f.isStuck then throw f else return .failed f key
    else match v with
      | .set r => return .value (.method (← Act.newHandle) key r)
      | _ => return .missing otherwise

/-! ## The search -/

def missingKey (s : Store) (object : Value) (key : String) : Raised :=
  let ofKeys (keys : List String) : Raised :=
    if keys.isEmpty then .missingKeyOfEmpty key
    else .missingKey key (String.intercalate ", " keys)
  match object with
  | .dict r => ofKeys ((s.dict r).keys.map fun k => (s.view k).print)
  | .list r => ofKeys ((List.range (s.list r).length).map toString)
  | .tuple items => ofKeys ((List.range items.length).map toString)
  | .null => .keyOfNull key
  | v => .keyOf key v.typeName

def searchMember (scope : Scope) (object : Value) (key : String) (args : List Value)
    (access : Access) : Act Found := do
  let type := object.typeName
  if object.isNull || object.isScalar then
    return .missing (if access == .method then .methodOf key type else .attributeOf key type)
  let otherwise := Raised.missingMember key type
  match object with
  | .object _ o => do
    let s ← get
    ofObject scope.host o key (args.map s.view) access otherwise
  | .template _ _ => return .missing otherwise
  | v => ofContainer scope.methods v key args access otherwise

def search (scope : Scope) (object item : Value) (args : List Value) (access : Access) :
    Act Found := do
  let key ← Act.print item
  let s ← get
  if access == .method then searchMember scope object key args access
  else match item? s object item with
    | some v => return .value v
    | none =>
      if access == .key then return .missing (missingKey s object key)
      else searchMember scope object key args access

inductive Mode
  | strict
  | lenient
  /-- It is the answer to the question whether there is such an attribute. -/
  | probe
  deriving DecidableEq, Repr

def get (scope : Scope) (object item : Value) (args : List Value) (access : Access) (mode : Mode)
    (line : Int) : Act Value := do
  match mode, ← search scope object item args access with
  | .probe, .value _ => return .bool true
  | .probe, _ => return .bool false
  | _, .value v => return v
  | _, .failed cause member =>
    scope.raise line (.thrownByMethod member object.typeName) (some cause)
  | .lenient, .missing _ => return .null
  | .strict, .missing reason => scope.raise line reason none

end Attribute

namespace Scope

def mode (scope : Scope) (defined lenient : Bool) : Attribute.Mode :=
  if defined then .probe
  else if lenient || !scope.options.strictVariables then .lenient
  else .strict

def getAttribute (scope : Scope) (object item : Value) (args : List Value) (access : Access)
    (defined lenient : Bool) (line : Int) : Act Value :=
  Attribute.get scope object item args access (scope.mode defined lenient) line

def getVariable (scope : Scope) (context : Nat) (name : String) (lenient : Bool) (line : Int) :
    Act Value := do
  match (← Act.dictEntries context).get? (.text name) with
  | some v => return v
  | none => match scope.mode false lenient with
    | .strict => scope.raise line (.missingVariable name) none
    | _ => return .null

end Scope
end Stencil
