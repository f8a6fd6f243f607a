import Stencil.Listing.Writer

/-!
# The program of a template

A template is turned into a program: one function that takes the template and returns a table with
its name, a function for its body, one for the template it extends, and one for each block.  This
file writes the text of that program.

Every node of the tree becomes a `Piece`: how to write it, and the pieces of its children.  What a
node writes depends only on its own kind, line and attributes and on those pieces, so `write` is one
case for each kind.

A variable or attribute is written in one of three ways.  Usually it is `strict`.  Under the
`default` filter it is `lenient`, which holds for the whole chain of attributes it ends.  Under the
`defined` test it is `probed`, and the chain before it is lenient.
-/

namespace Stencil.Listing

open Writer (raw string start literal mark suite fail all)

/-- How a missing variable or attribute is taken. -/
inductive Care
  | strict
  | lenient
  | probed
  deriving DecidableEq, Repr

def Care.below : Care → Care
  | .strict => .strict
  | _ => .lenient

/-- A node that is ready to be written. -/
inductive Piece
  | piece (node : Node) (write : Care → Emit) (parts : List Piece)

namespace Piece

def none : Piece := .piece .absent (fun _ w => w) []

def node : Piece → Node
  | piece n _ _ => n

def parts : Piece → List Piece
  | piece _ _ ps => ps

def emitWith (p : Piece) (care : Care) : Emit := fun w =>
  match w.failure with
  | some _ => w
  | .none => match p with
    | piece _ write _ => write care w

def emit (p : Piece) : Emit := p.emitWith .strict

def part (p : Piece) (i : Nat) : Piece := (p.parts[i]?).getD none

end Piece

/-! ## Lists -/

def separated : List Piece → Emit
  | [] => id
  | [p] => p.emit
  | p :: ps => all [p.emit, raw ", ", separated ps]

def pairs : List Piece → Emit
  | key :: value :: rest =>
    let pair := all [raw "(", key.emit, raw ", ", value.emit, raw ")"]
    match rest with
    | _ :: _ :: _ => all [pair, raw ", ", pairs rest]
    | _ => pair
  | _ => id

def isNamed (p : Piece) : Bool := p.node.kind == .namedArgument

def named : List Piece → Emit
  | [] => id
  | [p] => all [string (p.node.text "name"), raw ": ", (p.part 0).emit]
  | p :: ps => all [string (p.node.text "name"), raw ": ", (p.part 0).emit, raw ", ", named ps]

def arguments (p : Piece) : Emit :=
  all [raw "[", separated (p.parts.filter fun a => !isNamed a), raw "], \x7b",
    named (p.parts.filter isNamed), raw "\x7d"]

/-! ## Expressions -/

def flagWord (b : Bool) : Emit := literal (.bool b)

def lineEnd (line : Int) : Emit := raw s!", {line})"

def reading (n : Node) (care : Care) : Emit :=
  let name := n.text "name"
  if name == "_context" then raw "context"
  else if n.flag "is_defined_test" || care == .probed then all [raw "(", string name, raw " in context)"]
  else
    all [raw "this.get_context(context, ", string name, raw ", ",
      flagWord (n.flag "ignore_strict" || care == .lenient), lineEnd n.line]

def access (n : Node) (object item arguments : Piece) (care : Care) : Emit :=
  all [raw "this.get_attribute(", object.emitWith care.below, raw ", ", item.emit, raw ", [",
    separated arguments.parts, raw "], ", string (n.text "type"), raw ", ",
    flagWord (n.flag "is_defined_test" || care == .probed), raw ", ",
    flagWord (n.flag "ignore_strict" || care == .lenient), lineEnd n.line]

/-- A filter; the `default` filter takes its operand as it comes. -/
def filter (n : Node) (operand args : Piece) : Emit :=
  let name := n.text "name"
  all [raw "this.filter(", string name, raw ", ",
    operand.emitWith (if name == "default" then .lenient else .strict), raw ", ", arguments args,
    lineEnd n.line]

/-- A test.  Whether something is defined can be asked of variables and attributes; constants and
containers always are. -/
def test (n : Node) (operand args : Piece) : Emit :=
  let name := n.text "name"
  if name == "defined" then
    match operand.node.kind with
    | .ident | .getAttr => operand.emitWith .probed
    | .constant | .stringConstant | .array | .hash => raw "True"
    | _ => fun w => fail (.malformed .definedOperand w.template n.line) w
  else
    all [raw "this.test(", string name, raw ", ", operand.emit, raw ", ", arguments args,
      lineEnd n.line]

def method? : Node.Kind → Option String
  | .add => "add"
  | .sub => "sub"
  | .mul => "mul"
  | .div => "div"
  | .floorDiv => "floordiv"
  | .remainder => "mod"
  | .power => "pow"
  | .equal => "equals"
  | .notEqual => "not_equals"
  | .less => "lt"
  | .lessEqual => "le"
  | .greater => "gt"
  | .greaterEqual => "ge"
  | .bitAnd => "bitand"
  | .bitOr => "bitor"
  | .bitXor => "bitxor"
  | _ => none

/-! ## Statements -/

def branches (word : String) : List Piece → Emit
  | condition :: body :: rest =>
    all [start [word, "this.to_bool("], condition.emit, raw "):\n", suite body.emit,
      branches "elif " rest]
  | _ => id

def branch (n : Node) (tests otherwise : Piece) : Emit :=
  all [mark n.line, branches "if " tests.parts,
    if otherwise.node.isAbsent then id else all [Writer.line "else:", suite otherwise.emit]]

/-- What is known about a loop before its first round. -/
def loopStart (conditional : Bool) : Emit :=
  all [Writer.line "context[\"loop\"] = \x7b\"parent\": context[\"_parent\"], \"index0\": 0, \"index\": 1, \"first\": True\x7d",
    if conditional then id
    else all [
      Writer.line "context[\"loop\"][\"length\"] = len(context[\"_seq\"])",
      Writer.line "context[\"loop\"][\"revindex0\"] = context[\"loop\"][\"length\"] - 1",
      Writer.line "context[\"loop\"][\"revindex\"] = context[\"loop\"][\"length\"]",
      Writer.line "context[\"loop\"][\"last\"] = context[\"loop\"][\"length\"] == 1"]]

def loop (n : Node) (sequence body otherwise : Piece) : Emit := fun w =>
  let key := n.text "key_target"
  let value := n.text "value_target"
  let w := all [mark n.line,
    Writer.line "context[\"_parent\"] = dict(context)",
    start ["context[\"_seq\"] = this.iterate("], sequence.emit, raw ")\n",
    if n.flag "else" then Writer.line "context[\"_iterated\"] = False" else id,
    if n.flag "with_loop" then loopStart (n.flag "ifexpr") else id] w
  let (k, w) := w.fresh "k"
  let (v, w) := w.fresh "v"
  all [Writer.line s!"for {k}, {v} in context[\"_seq\"]:",
    suite (all [
      start ["context["], string key, raw s!"] = {k}\n",
      start ["context["], string value, raw s!"] = {v}\n",
      body.emit]),
    if n.flag "else" then
      all [Writer.line "if not context[\"_iterated\"]:", suite otherwise.emit]
    else id,
    start ["this.leave_scope(context, ["], string key, raw ", ", string value, raw "])\n"] w

/-- What is kept up to date at the end of each round of a loop. -/
def loopEnd (n : Node) : Emit :=
  all [if n.flag "else" then Writer.line "context[\"_iterated\"] = True" else id,
    if n.flag "with_loop" then
      all [Writer.line "context[\"loop\"][\"index0\"] += 1",
        Writer.line "context[\"loop\"][\"index\"] += 1",
        Writer.line "context[\"loop\"][\"first\"] = False",
        if n.flag "ifexpr" then id
        else all [
          Writer.line "context[\"loop\"][\"revindex0\"] -= 1",
          Writer.line "context[\"loop\"][\"revindex\"] -= 1",
          Writer.line "context[\"loop\"][\"last\"] = context[\"loop\"][\"revindex0\"] == 0"]]
    else id]

def showing (header : String) (body : Emit) : Emit :=
  all [Writer.line header,
    suite (all [Writer.line "_out = []", body, Writer.line "return \"\".join(_out)"])]

def assignments (values : Piece) : Nat → List Piece → Emit
  | _, [] => id
  | i, target :: rest =>
    all [start [], target.emit, raw " = ", (values.part i).emit, raw "\n",
      assignments values (i + 1) rest]

def assign (n : Node) (names values : Piece) : Emit := fun w =>
  let w := mark n.line w
  if n.flag "capture" then
    let (f, w) := w.fresh "capture"
    all [showing s!"def {f}():" (values.part 0).emit,
      start [], (names.part 0).emit, raw s!" = {f}()\n"] w
  else assignments values 0 names.parts w

def inclusion (n : Node) (template bindings : Piece) : Emit :=
  all [mark n.line, start ["_out.append(this.include(context, "], template.emit, raw ", ",
    if bindings.node.isAbsent then raw "None" else bindings.emit,
    raw ", ", flagWord (n.flag "only"), raw ", ", flagWord (n.flag "ignore_missing"),
    raw s!", {n.line}))\n"]

/-! ## All kinds -/

def write (n : Node) (parts : List Piece) (care : Care) : Emit :=
  let part (i : Nat) : Piece := (parts[i]?).getD Piece.none
  match n.kind with
  | .body => all (parts.map Piece.emit)
  | .text => all [mark n.line, start ["_out.append("], string (n.text "data"), raw ")\n"]
  | .print => all [mark n.line, start ["_out.append(this.to_string("], (part 0).emit, raw "))\n"]
  | .loop => loop n (part 2) (part 3) (part 4)
  | .loopEnd => loopEnd n
  | .branch => branch n (part 0) (part 1)
  | .block =>
    all [mark n.line,
      showing ("def block_" ++ n.text "name" ++ "(context, blocks):") (part 0).emit]
  | .blockReference =>
    all [mark n.line, start ["_out.append(this.display_block("], string (n.text "name"),
      raw ", context, blocks, True))\n"]
  | .assign => assign n (part 0) (part 1)
  | .inclusion => inclusion n (part 0) (part 1)
  | .constant => literal ((n.attr? "value").getD .null)
  | .stringConstant => string (n.text "value")
  | .ident => reading n care
  | .target => all [raw "context[", string (n.text "name"), raw "]"]
  | .getAttr => access n (part 0) (part 1) (part 2) care
  | .array => all [raw "[", separated parts, raw "]"]
  | .hash => all [raw "dict([", pairs parts, raw "])"]
  | .arguments => arguments (.piece n (fun _ w => w) parts)
  | .namedArgument => (part 0).emit
  | .filter => filter n (part 0) (part 1)
  | .call =>
    all [raw "this.call(", string (n.text "name"), raw ", ", arguments (part 0), lineEnd n.line]
  | .test => test n (part 0) (part 1)
  | .conditional =>
    all [raw "(", (part 1).emit, raw " if this.to_bool(", (part 0).emit, raw ") else ",
      (part 2).emit, raw ")"]
  | .parent =>
    all [raw "this.render_parent_block(", string (n.text "name"), raw ", context, blocks)"]
  | .blockCall => all [raw "this.render_block(", (part 0).emit, raw ", context, blocks)"]
  | .concat =>
    all [raw "(this.to_string(", (part 0).emit, raw ") + this.to_string(", (part 1).emit, raw "))"]
  | .startsWith =>
    all [raw "this.to_string(", (part 0).emit, raw ").startswith(this.to_string(", (part 1).emit,
      raw "))"]
  | .endsWith =>
    all [raw "this.to_string(", (part 0).emit, raw ").endswith(this.to_string(", (part 1).emit,
      raw "))"]
  | .member => all [raw "this.contains(", (part 1).emit, raw ", ", (part 0).emit, raw ")"]
  | .notMember =>
    all [raw "(not this.contains(", (part 1).emit, raw ", ", (part 0).emit, raw "))"]
  | .range => all [raw "this.range(", (part 0).emit, raw ", ", (part 1).emit, raw ")"]
  | .conj =>
    all [raw "(this.to_bool(", (part 0).emit, raw ") and this.to_bool(", (part 1).emit, raw "))"]
  | .disj =>
    all [raw "(this.to_bool(", (part 0).emit, raw ") or this.to_bool(", (part 1).emit, raw "))"]
  | .negation => all [raw "(not this.to_bool(", (part 0).emit, raw "))"]
  | .neg => all [raw "this.dynamic(", (part 0).emit, raw ").neg()"]
  | .pos => all [raw "this.dynamic(", (part 0).emit, raw ").pos()"]
  | .module => fail (.plain "a Module node cannot be nested")
  | kind =>
    match method? kind with
    | some method =>
      all [raw "this.dynamic(", (part 0).emit, raw s!").{method}(this.dynamic(", (part 1).emit,
        raw "))"]
    | none => fail (.plain ("no code generation for node kind " ++ kind.name))

mutual

def lower : Node → Piece
  | .absent => Piece.none
  | .node k l t as cs =>
    let parts := lowerAll cs
    .piece (.node k l t as cs) (write (.node k l t as cs) parts) parts

def lowerAll : List Node → List Piece
  | [] => []
  | n :: ns => lower n :: lowerAll ns

end

def emit (n : Node) : Emit := (lower n).emit

/-! ## Whole programs -/

def blockEntry (b : Piece) : Emit :=
  let name := b.node.text "name"
  all [start [], string name, raw (": block_" ++ name ++ ",\n")]

def program (module : Piece) (unit : String) : Emit :=
  let name := module.node.text "filename"
  let parent := module.part 1
  let blocks := (module.part 2).parts
  all [Writer.line ("# Template " ++ Text.quoted name ++ "."),
    Writer.line "# Line markers refer to the template source.",
    raw "\n",
    Writer.line s!"def {unit}(this):",
    Writer.indent,
    Writer.line "def do_display(context, blocks):",
    suite (all [
      Writer.line "_out = []",
      (module.part 0).emit,
      Writer.line (if parent.node.isAbsent then "return \"\".join(_out)"
        else "return this.display_parent(context, blocks)")]),
    raw "\n",
    Writer.line "def get_parent(context):",
    suite (if parent.node.isAbsent then Writer.line "return None"
      else all [start ["return "], parent.emit, raw "\n"]),
    all (blocks.map fun b => all [raw "\n", b.emit]),
    raw "\n",
    Writer.line "return \x7b",
    Writer.indent,
    start ["\"name\": "], string name, raw ",\n",
    Writer.line "\"display\": do_display,",
    Writer.line "\"parent\": get_parent,",
    Writer.line "\"blocks\": \x7b",
    Writer.indent,
    all (blocks.map blockEntry),
    Writer.outdent,
    Writer.line "\x7d,",
    Writer.outdent,
    Writer.line "\x7d",
    Writer.outdent]

def compile (module : Node) (unit : String → String) : Except Failure String :=
  if module.kind != .module then .error (.plain "compile: expected a Module node")
  else
    let name := module.text "filename"
    let w := program (lower module) (unit name) (Writer.empty name)
    match w.failure with
    | some f => .error f
    | none => .ok w.text

end Stencil.Listing
