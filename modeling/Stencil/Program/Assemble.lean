import Stencil.Listing
import Stencil.Program

/-!
# From trees to programs

Every node of a tree becomes a `Part`: the expression or the statement it stands for, if it stands
for one, and the parts of its children.  The walk is the same as that of the listing, and the marks
of the statements are the lines that stand above them there: a line that is marked holds for
everything after it in the text until the next one.
-/

namespace Stencil.Program

open Listing (Care)

/-- A statement, from the line marked before it, together with the line marked after it. -/
abbrev Step := Int → Option (Stmt × Int)

inductive Part
  | part (node : Node) (expr : Care → Option Expr) (stmt : Step) (parts : List Part)

namespace Part

/-- The part of a child that is not there: no expression, and a statement that does nothing. -/
def none : Part := .part .absent (fun _ => .none) (fun mark => some (.skip, mark)) []

def node : Part → Node
  | part n _ _ _ => n

def exprWith : Part → Care → Option Expr
  | part _ e _ _ => e

def expr (p : Part) : Option Expr := p.exprWith .strict

def stmt : Part → Step
  | part _ _ s _ => s

def parts : Part → List Part
  | part _ _ _ ps => ps

def child (p : Part) (i : Nat) : Part := (p.parts[i]?).getD none

def isNamed (p : Part) : Bool := p.node.kind == .namedArgument

end Part

/-! ## Expressions -/

/-- Keys and values that follow each other; a key without a value is left out. -/
def paired {α : Type} : List α → List α
  | k :: v :: rest => k :: v :: paired rest
  | _ => []

structure Args where
  positional : List Expr
  names : List String
  values : List Expr

def args? (p : Part) : Option Args := do
  let named := p.parts.filter Part.isNamed
  return {
    positional := ← (p.parts.filter fun a => !a.isNamed).mapM Part.expr
    names := named.map fun a => a.node.text "name"
    values := ← named.mapM fun a => (a.child 0).expr }

def reading (n : Node) (care : Care) : Expr :=
  let name := n.text "name"
  if name == "_context" then .context
  else if n.flag "is_defined_test" || care == .probed then .known name
  else .reading name (n.flag "ignore_strict" || care == .lenient) n.line

def accessOf (word : String) : Node.Access :=
  if word == "array" then .key else if word == "method" then .method else .any

def access? (n : Node) (object item arguments : Part) (care : Care) : Option Expr := do
  let object ← object.exprWith care.below
  let item ← item.expr
  let args ← arguments.parts.mapM Part.expr
  return .attr object item args (accessOf (n.text "type"))
    (n.flag "is_defined_test" || care == .probed) (n.flag "ignore_strict" || care == .lenient) n.line

def filter? (n : Node) (operand args : Part) : Option Expr := do
  let name := n.text "name"
  let operand ← operand.exprWith (if name == "default" then .lenient else .strict)
  let args ← args? args
  return .filter name operand args.positional args.names args.values n.line

def test? (n : Node) (operand args : Part) : Option Expr :=
  let name := n.text "name"
  if name == "defined" then
    match operand.node.kind with
    | .ident | .getAttr => operand.exprWith .probed
    | _ => some (.constant (.bool true))
  else do
    let operand ← operand.expr
    let args ← args? args
    return .test name operand args.positional args.names args.values n.line

def arithmetic? : Node.Kind → Option Arithmetic
  | .add => some .add
  | .sub => some .sub
  | .mul => some .mul
  | .div => some .div
  | .floorDiv => some .floorDiv
  | .remainder => some .mod
  | .power => some .pow
  | .bitAnd => some .bitAnd
  | .bitOr => some .bitOr
  | .bitXor => some .bitXor
  | _ => none

def relation? : Node.Kind → Option Relation
  | .equal => some .eq
  | .notEqual => some .ne
  | .less => some .lt
  | .lessEqual => some .le
  | .greater => some .gt
  | .greaterEqual => some .ge
  | _ => none

def expr? (n : Node) (parts : List Part) (care : Care) : Option Expr :=
  let part (i : Nat) : Part := (parts[i]?).getD Part.none
  let one (make : Expr → Expr) : Option Expr := do return make (← (part 0).expr)
  let two (make : Expr → Expr → Expr) : Option Expr := do
    return make (← (part 0).expr) (← (part 1).expr)
  match n.kind with
  | .constant => some (.constant ((n.attr? "value").getD .null))
  | .stringConstant => some (.constant (.text (n.text "value")))
  | .ident => some (reading n care)
  | .getAttr => access? n (part 0) (part 1) (part 2) care
  | .array => do return .array (← parts.mapM Part.expr)
  | .hash => do return .hash (← (paired parts).mapM Part.expr)
  | .namedArgument => (part 0).expr
  | .filter => filter? n (part 0) (part 1)
  | .call => do
    let args ← args? (part 0)
    return .call (n.text "name") args.positional args.names args.values n.line
  | .test => test? n (part 0) (part 1)
  | .conditional => do
    return .conditional (← (part 0).expr) (← (part 1).expr) (← (part 2).expr)
  | .parent => some (.parentBlock (n.text "name"))
  | .blockCall => one .blockCall
  | .concat => two .concat
  | .startsWith => two .startsWith
  | .endsWith => two .endsWith
  | .member => two (.member false)
  | .notMember => two (.member true)
  | .range => two .range
  | .conj => two .conj
  | .disj => two .disj
  | .negation => one .negation
  | .neg => one .negate
  | .pos => one .positive
  | kind => match arithmetic? kind, relation? kind with
    | some op, _ => two (.calculate op)
    | _, some r => two (.relate r)
    | none, none => none

/-! ## Statements -/

def sequence : List Part → Step
  | [], mark => some (.skip, mark)
  | p :: ps, mark => do
    let (first, mark) ← p.stmt mark
    let (rest, mark) ← sequence ps mark
    return (.seq first rest, mark)

def branches (otherwise : Step) : List Part → Step
  | condition :: body :: rest, mark => do
    let test ← condition.expr
    let (yes, after) ← body.stmt mark
    let (no, after) ← branches otherwise rest after
    return (.branch test yes no mark, after)
  | _, mark => otherwise mark

def flags (n : Node) : LoopFlags := ⟨n.flag "with_loop", n.flag "ifexpr", n.flag "else"⟩

def loop? (n : Node) (sequence body otherwise : Part) : Option (Stmt × Int) := do
  let seq ← sequence.expr
  let (inner, elseMark) ← body.stmt n.line
  let (other, endMark) ← if n.flag "else" then otherwise.stmt elseMark else some (.skip, elseMark)
  return (.loop (n.text "key_target") (n.text "value_target") seq (flags n) inner other
    n.line elseMark endMark, endMark)

def target? (p : Part) : Option String :=
  if p.node.kind == .target then some (p.node.text "name") else none

def assignments (values : Part) (mark : Int) : Nat → List Part → Option Stmt
  | _, [] => some .skip
  | i, target :: rest => do
    let name ← target? target
    let value ← (values.child i).expr
    return .seq (.assign name value mark) (← assignments values mark (i + 1) rest)

def assign? (n : Node) (names values : Part) : Option (Stmt × Int) := do
  if n.flag "capture" then
    let name ← target? (names.child 0)
    let (body, mark) ← (values.child 0).stmt n.line
    return (.capture name body mark, mark)
  else
    return (← assignments values n.line 0 names.parts, n.line)

def inclusion? (n : Node) (template bindings : Part) : Option (Stmt × Int) := do
  let name ← template.expr
  let extra ← if bindings.node.isAbsent then some none else bindings.expr.map some
  return (.inclusion name extra (n.flag "only") (n.flag "ignore_missing") n.line n.line, n.line)

def stmt? (n : Node) (parts : List Part) (mark : Int) : Option (Stmt × Int) :=
  let part (i : Nat) : Part := (parts[i]?).getD Part.none
  match n.kind with
  | .body => sequence parts mark
  | .text => some (.text (n.text "data"), n.line)
  | .print => do return (.print (← (part 0).expr) n.line, n.line)
  | .loop => loop? n (part 2) (part 3) (part 4)
  | .loopEnd => some (.round (flags n) mark, mark)
  | .branch => branches (part 1).stmt (part 0).parts n.line
  | .blockReference => some (.block (n.text "name") n.line, n.line)
  | .assign => assign? n (part 0) (part 1)
  | .inclusion => inclusion? n (part 0) (part 1)
  | _ => none

mutual

def partOf : Node → Part
  | .absent => Part.none
  | .node k l t as cs =>
    let parts := partsOf cs
    let n := Node.node k l t as cs
    .part n (expr? n parts) (stmt? n parts) parts

def partsOf : List Node → List Part
  | [] => []
  | n :: ns => partOf n :: partsOf ns

end

/-! ## Whole templates -/

def blocks : List Part → Int → Option (List (String × Stmt))
  | [], _ => some []
  | b :: bs, _ => do
    let (body, mark) ← (b.child 0).stmt b.node.line
    return (b.node.text "name", body) :: (← blocks bs mark)

def parent? (p : Part) : Option (Option Expr) :=
  if p.node.isAbsent then some none else p.expr.map some

def assemble (module : Node) (unit : String) : Option Template := do
  let p := partOf module
  let (body, mark) ← (p.child 0).stmt 0
  let parent ← parent? (p.child 1)
  return {
    name := module.text "filename"
    unit := unit
    body := body
    parent := parent
    endMark := mark
    parentMark := mark
    blocks := ← blocks (p.child 2).parts mark }

end Stencil.Program
