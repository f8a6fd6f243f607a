import Stencil.Decimal.Layout
import Stencil.Text.Quoted

/-!
# Syntax trees

A template is a tree of labelled nodes.  A node has a kind, the line it comes from, named attributes
and children; what the children mean depends on the kind.  A child that is not there is `absent`,
so that children keep their places.

`Node.tag` is the name of the tag a statement was written with, and is empty for other nodes.
-/

namespace Stencil

/-! ## Kinds -/

/-- What a node stands for.  `other` is a kind without a meaning. -/
inductive Node.Kind
  | invalid
  | module
  | body
  | text
  | print
  | loop
  | loopEnd
  | branch
  | block
  | blockReference
  | assign
  | inclusion
  | constant
  | stringConstant
  | ident
  | target
  | getAttr
  | array
  | hash
  | arguments
  | namedArgument
  | filter
  | call
  | test
  | conditional
  | parent
  | blockCall
  | add
  | sub
  | mul
  | div
  | floorDiv
  | remainder
  | power
  | concat
  | equal
  | notEqual
  | less
  | lessEqual
  | greater
  | greaterEqual
  | range
  | member
  | notMember
  | startsWith
  | endsWith
  | conj
  | disj
  | bitAnd
  | bitOr
  | bitXor
  | negation
  | neg
  | pos
  | other (number : Int)
  deriving DecidableEq, Repr, Inhabited

namespace Node.Kind

def all : List Kind :=
  [.invalid, .module, .body, .text, .print, .loop, .loopEnd, .branch, .block, .blockReference,
   .assign, .inclusion, .constant, .stringConstant, .ident, .target, .getAttr, .array, .hash,
   .arguments, .namedArgument, .filter, .call, .test, .conditional, .parent, .blockCall, .add,
   .sub, .mul, .div, .floorDiv, .remainder, .power, .concat, .equal, .notEqual, .less,
   .lessEqual, .greater, .greaterEqual, .range, .member, .notMember, .startsWith, .endsWith,
   .conj, .disj, .bitAnd, .bitOr, .bitXor, .negation, .neg, .pos]

def name : Kind → String
  | .invalid => "Invalid"
  | .module => "Module"
  | .body => "Body"
  | .text => "Text"
  | .print => "Print"
  | .loop => "For"
  | .loopEnd => "ForLoop"
  | .branch => "If"
  | .block => "Block"
  | .blockReference => "BlockReference"
  | .assign => "Set"
  | .inclusion => "Include"
  | .constant => "Constant"
  | .stringConstant => "StringConstant"
  | .ident => "Name"
  | .target => "AssignName"
  | .getAttr => "GetAttr"
  | .array => "Array"
  | .hash => "Hash"
  | .arguments => "Arguments"
  | .namedArgument => "NamedArgument"
  | .filter => "Filter"
  | .call => "Function"
  | .test => "Test"
  | .conditional => "Conditional"
  | .parent => "Parent"
  | .blockCall => "BlockCall"
  | .add => "Add"
  | .sub => "Sub"
  | .mul => "Mul"
  | .div => "Div"
  | .floorDiv => "FloorDiv"
  | .remainder => "Mod"
  | .power => "Power"
  | .concat => "Concat"
  | .equal => "Equal"
  | .notEqual => "NotEqual"
  | .less => "Less"
  | .lessEqual => "LessEqual"
  | .greater => "Greater"
  | .greaterEqual => "GreaterEqual"
  | .range => "Range"
  | .member => "In"
  | .notMember => "NotIn"
  | .startsWith => "StartsWith"
  | .endsWith => "EndsWith"
  | .conj => "And"
  | .disj => "Or"
  | .bitAnd => "BitAnd"
  | .bitOr => "BitOr"
  | .bitXor => "BitXor"
  | .negation => "Not"
  | .neg => "Neg"
  | .pos => "Pos"
  | .other n => s!"Kind({n})"

def ofNumber (n : Int) : Kind :=
  if 0 ≤ n then (all[n.toNat]?).getD (.other n) else .other n

def ofName? (s : String) : Option Kind := all.find? (·.name == s)

def isBinary : Kind → Bool
  | .add | .sub | .mul | .div | .floorDiv | .remainder | .power | .concat | .equal | .notEqual
  | .less | .lessEqual | .greater | .greaterEqual | .range | .member | .notMember | .startsWith
  | .endsWith | .conj | .disj | .bitAnd | .bitOr | .bitXor => true
  | _ => false

def isUnary : Kind → Bool
  | .negation | .neg | .pos => true
  | _ => false

end Node.Kind

/-! ## Trees -/

/-- The value of an attribute.  `foreign` is a value of a type that has no literal form, and holds
the name of that type. -/
inductive Attr
  | null
  | bool (b : Bool)
  | int (i : Int)
  | float (f : Float)
  | text (s : String)
  | foreign (typeName : String)
  deriving Inhabited

inductive Node
  | absent
  | node (kind : Node.Kind) (line : Int) (tag : String) (attrs : List (String × Attr))
      (children : List Node)
  deriving Inhabited

namespace Node

def kind : Node → Kind
  | absent => .invalid
  | node k _ _ _ _ => k

def line : Node → Int
  | absent => 0
  | node _ l _ _ _ => l

def tag : Node → String
  | absent => ""
  | node _ _ t _ _ => t

def attrs : Node → List (String × Attr)
  | absent => []
  | node _ _ _ as _ => as

def children : Node → List Node
  | absent => []
  | node _ _ _ _ cs => cs

def isAbsent : Node → Bool
  | absent => true
  | node .. => false

def child (n : Node) (i : Nat) : Node := (n.children[i]?).getD absent

def attr? (n : Node) (key : String) : Option Attr := n.attrs.lookup key

def text (n : Node) (key : String) : String :=
  match n.attr? key with
  | some (.text s) => s
  | _ => ""

def flag (n : Node) (key : String) : Bool :=
  match n.attr? key with
  | some (.bool b) => b
  | _ => false

/-! ## The shapes the parser builds -/

def plain (kind : Kind) (line : Int) (children : List Node) : Node := .node kind line "" [] children

def leaf (kind : Kind) (line : Int) (key value : String) : Node :=
  .node kind line "" [(key, .text value)] []

def ofText (data : String) (line : Int) : Node := leaf .text line "data" data

def ofPrint (expr : Node) (line : Int) : Node := plain .print line [expr]

def ofBody (nodes : List Node) (line : Int) : Node := plain .body line nodes

def ofConstant (value : Attr) (line : Int) : Node := .node .constant line "" [("value", value)] []

def ofString (value : String) (line : Int) : Node := leaf .stringConstant line "value" value

def ofName (name : String) (line : Int) : Node := leaf .ident line "name" name

def ofTarget (name : String) (line : Int) : Node := leaf .target line "name" name

inductive Access
  /-- `object.item` -/
  | any
  /-- `object[item]` -/
  | key
  /-- `object.item(arguments)` -/
  | method
  deriving DecidableEq, Repr, Inhabited

def Access.word : Access → String
  | .any => "any"
  | .key => "array"
  | .method => "method"

def ofAccess (object item arguments : Node) (access : Access) (line : Int) : Node :=
  .node .getAttr line "" [("type", .text access.word)] [object, item, arguments]

def ofCall (kind : Kind) (name : String) (line : Int) (children : List Node) : Node :=
  .node kind line "" [("name", .text name)] children

/-- The whole template: its body, the expression for the template it extends, and its blocks. -/
def ofModule (body parent : Node) (blocks : List Node) (template : String) : Node :=
  .node .module 1 "" [("filename", .text template)] [body, parent, ofBody blocks 1]

def withTag (name : String) : Node → Node
  | absent => absent
  | node k l t as cs => node k l (if t.isEmpty then name else t) as cs

/-! ## Mentioned variables -/

mutual

def names (name : String) : Node → Bool
  | absent => false
  | node k l t as cs =>
    (k == .ident && (node k l t as cs).text "name" == name) || anyNames name cs

def anyNames (name : String) : List Node → Bool
  | [] => false
  | n :: ns => n.names name || anyNames name ns

end

end Node
end Stencil
