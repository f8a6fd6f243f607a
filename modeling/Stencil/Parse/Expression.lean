import Stencil.Parse
import Stencil.Decimal.Reader
import Stencil.Text.Case
import Stencil.Token.Scanner

/-!
# Reading expressions

Expressions are read by precedence climbing.  `expression` reads a first operand and then operators
for as long as they bind at least as tightly as asked; the right side of an operator is read with
the precedence its associativity asks for.  At the lowest precedence a conditional may follow.

An operand is a literal, a name, a call, an array or a hash, followed by any number of `.name`,
`[key]` and `|filter` suffixes.

The functions below are written over `self`, the reader of the expressions inside; `expression` ties
the knot.  An expression inside another one starts at least one token later, so the depth of nesting
is at most the number of tokens.  The loops, too, use up a token each time round.  A reader that went
round without passing one would be `stuck`.
-/

namespace Stencil.Parse

/-! ## Constants -/

/-- A number: with a point it is a float, without one an integer of 64 bits. -/
def numberConstant? (t : Token) : Option Node :=
  if t.value.toList.contains '.' then
    (Decimal.float? t.value).map fun f => Node.ofConstant (.float f) t.line
  else (Decimal.int64? t.value).map fun i => Node.ofConstant (.int i) t.line

/-- The constant a reserved word stands for, whatever its case. -/
def reserved? (name : String) : Option Attr :=
  match Text.lower name with
  | "true" => some (.bool true)
  | "false" => some (.bool false)
  | "none" => some .null
  | "null" => some .null
  | _ => none

/-- Complains about a token that cannot stand here. -/
def unexpected {α : Type} (t : Token) : Parse α := fail (.unexpectedToken t.kind t.value) t.line

section Nested

variable (v : Vocabulary) (self : Int → Parse Node)

/-! ## Lists of expressions -/

def argument : Parse Node := do
  let value ← self 0
  if value.kind == .ident then
    let equals ← nextIf .operator ["="]
    let colon ← nextIf .punctuation [":"]
    if equals.isSome || colon.isSome then
      let named ← self 0
      return Node.ofCall .namedArgument (value.text "name") value.line [named]
  return value

def argumentList : Nat → List Node → Parse (List Node)
  | 0, _ => stuck
  | fuel + 1, done => do
    if ← testMark ")" then return done.reverse
    if !done.isEmpty then
      let _ ← expectMark "Arguments must be separated by a comma" ","
    if ← atEnd then return done.reverse
    let value ← argument self
    argumentList fuel (value :: done)

def arguments : Parse Node := do
  let opening ←
    expectMark "A list of arguments must begin with an opening parenthesis" "("
  let values ← argumentList self (← remaining) []
  let _ ← expectMark "A list of arguments must be closed by a parenthesis" ")"
  return .plain .arguments opening.line values

def optionalArguments (line : Int) : Parse Node := do
  if ← testMark "(" then arguments self else return .plain .arguments line []

def arrayItems : Nat → List Node → Parse (List Node)
  | 0, _ => stuck
  | fuel + 1, done => do
    if ← testMark "]" then return done.reverse
    if !done.isEmpty then
      let _ ← expectMark "An array element must be followed by a comma" ","
      if ← testMark "]" then return done.reverse
    if ← atEnd then return done.reverse
    let item ← self 0
    arrayItems fuel (item :: done)

def array : Parse Node := do
  let opening ← expectMark "An array element was expected" "["
  let items ← arrayItems self (← remaining) []
  let _ ← expectMark "An opened array is not properly closed" "]"
  return .plain .array opening.line items

def hashKey : Parse Node := do
  let t ← current
  match t.kind with
  | .endOfTemplate => fail .unclosedHash t.line
  | .string | .name => let _ ← next; return Node.ofString t.value t.line
  | .number =>
    let _ ← next
    match numberConstant? t with
    | some n => return n
    | none => fail (.invalidNumber t.value) t.line
  | _ => if t.isMark "(" then self 0 else fail (.hashKey t.kind t.value) t.line

def hashItems : Nat → List Node → Parse (List Node)
  | 0, _ => stuck
  | fuel + 1, done => do
    if ← testMark "\x7d" then return done.reverse
    if !done.isEmpty then
      let _ ← expectMark "A hash value must be followed by a comma" ","
      if ← testMark "\x7d" then return done.reverse
    let key ← hashKey self
    let _ ← expectMark "A hash key must be followed by a colon (:)" ":"
    let value ← self 0
    hashItems fuel (value :: key :: done)

def hash : Parse Node := do
  let opening ← expectMark "A hash element was expected" "\x7b"
  let items ← hashItems self (← remaining) []
  let _ ← expectMark "An opened hash is not properly closed" "\x7d"
  return .plain .hash opening.line items

/-! ## Strings -/

def stringParts : Nat → List Node → Parse (List Node)
  | 0, _ => stuck
  | fuel + 1, done => do
    match ← nextIf .string [] with
    | some t => stringParts fuel (Node.ofString t.value t.line :: done)
    | none =>
      match ← nextIf .interpolationStart [] with
      | some _ =>
        let expr ← self 0
        let _ ← expect .interpolationEnd []
        stringParts fuel (expr :: done)
      | none => return done.reverse

def concatenation : List Node → Node
  | [] => .absent
  | first :: rest => rest.foldl (fun left n => .plain .concat n.line [left, n]) first

def string : Parse Node := do
  let parts ← stringParts self (← remaining) []
  return concatenation parts

/-! ## Calls -/

/-- A function call; `parent` and `block` build nodes of their own. -/
def functionCall (name : String) (line : Int) : Parse Node := do
  let args ← arguments self
  match name with
  | "parent" =>
    let s ← get
    match s.openBlocks with
    | [] => fail .parentOutsideBlock line
    | block :: _ =>
      if s.parent.isNone then fail .parentWithoutExtends line
      return Node.ofCall .parent block line []
  | "block" =>
    match args.children with
    | [argument] =>
      if argument.kind == .namedArgument then fail .blockArgument line
      return .plain .blockCall line [argument]
    | _ => fail .blockArgument line
  | _ =>
    if !v.functions.contains name then fail (.unknownFunction name) line
    return Node.ofCall .call name line [args]

def filter (operand : Node) : Parse Node := do
  let _ ← next
  let t ← expect .name []
  if !v.filters.contains t.value then fail (.unknownFilter t.value) t.line
  let args ← optionalArguments self t.line
  return Node.ofCall .filter t.value t.line [operand, args]

def memberItem (line : Int) : Parse (Node × String) := do
  let t ← next
  match t.kind with
  | .name => return (Node.ofString t.value line, t.value)
  | .operator =>
    if Scanner.isName t.value then return (Node.ofString t.value line, t.value)
    fail .memberExpected line
  | .number =>
    match numberConstant? t with
    | some n => return (n, t.value)
    | none => fail (.invalidNumber t.value) line
  | _ => fail .memberExpected line

/-- An item of an object: `.name`, `.name(arguments)` or `[key]`. -/
def subscript (object : Node) : Parse Node := do
  let t ← next
  let line := t.line
  if t.value == "." then
    let (item, name) ← memberItem line
    if ← testMark "(" then
      let args ← arguments self
      if args.children.any (·.kind == .namedArgument) then
        fail (.namedMethodArgument name) line
      return Node.ofAccess object item args .method line
    return Node.ofAccess object item (.plain .arguments line []) .any line
  let item ← self 0
  let _ ← expectMark "An opened bracket is not properly closed" "]"
  return Node.ofAccess object item (.plain .arguments line []) .key line

def suffixes : Nat → Node → Parse Node
  | 0, _ => stuck
  | fuel + 1, operand => do
    let t ← current
    if t.kind == .punctuation then
      if t.value == "." || t.value == "[" then
        suffixes fuel (← subscript self operand)
      else if t.value == "|" then
        suffixes fuel (← filter v self operand)
      else return operand
    else return operand

def withSuffixes (operand : Node) : Parse Node := do
  suffixes v self (← remaining) operand

/-! ## Operands -/

def simple : Parse Node := do
  let t ← current
  match t.kind with
  | .name =>
    let _ ← next
    match reserved? t.value with
    | some constant => return Node.ofConstant constant t.line
    | none =>
      if ← testMark "(" then functionCall v self t.value t.line
      else return Node.ofName t.value t.line
  | .number =>
    let _ ← next
    match numberConstant? t with
    | some n => return n
    | none => fail (.invalidNumber t.value) t.line
  | .string | .interpolationStart => string self
  | .punctuation =>
    if t.value == "[" then array self
    else if t.value == "\x7b" then hash self
    else unexpected t
  | .operator =>
    if !v.knows t.value then fail (.unsupportedOperator t.value) t.line
    unexpected t
  | _ => unexpected t

def operand : Parse Node := do
  let t ← current
  let prefixed := if t.kind == .operator then v.unary? t.value else none
  match prefixed with
  | some op =>
    let _ ← next
    let inner ← self op.precedence
    withSuffixes v self (.plain op.kind t.line [inner])
  | none =>
    if t.isMark "(" then
      let _ ← next
      let inner ← self 0
      let _ ← expectMark "An opened parenthesis is not properly closed" ")"
      withSuffixes v self inner
    else withSuffixes v self (← simple v self)

/-! ## Operators -/

def testCall (left : Node) (negated : Bool) (line : Int) : Parse Node := do
  let t ← expect .name []
  let following ← current
  let longer := t.value ++ " " ++ following.value
  let two := following.kind == .name && v.tests.contains longer
  if two then
    let _ ← next
  let name := if two then longer else t.value
  if !v.tests.contains name then fail (.unknownTest name) t.line
  let args ← optionalArguments self t.line
  let node := Node.ofCall .test name line [left, args]
  return if negated then .plain .negation line [node] else node

def rightSide (op : BinaryOperator) (left : Node) (line : Int) : Parse Node :=
  match op.right with
  | .test negated => testCall v self left negated line
  | .operand kind => do
    let right ← self op.rightPrecedence
    return .plain kind line [left, right]

/-- The operators after a first operand that bind at least as tightly as `precedence`. -/
def operators (precedence : Int) : Nat → Node → Parse Node
  | 0, _ => stuck
  | fuel + 1, left => do
    let t ← current
    let found := if t.kind == .operator then v.binary? t.value else none
    match found with
    | none => return left
    | some op =>
      if op.precedence < precedence then return left
      let _ ← next
      operators precedence fuel (← rightSide v self op left t.line)

def conditionals : Nat → Node → Parse Node
  | 0, _ => stuck
  | fuel + 1, test => do
    match ← nextIf .punctuation ["?"] with
    | none => return test
    | some t =>
      if ← skipMark ":" then
        let otherwise ← self 0
        conditionals fuel (.plain .conditional t.line [test, test, otherwise])
      else
        let value ← self 0
        let otherwise ←
          if ← skipMark ":" then self 0 else pure (Node.ofString "" t.line)
        conditionals fuel (.plain .conditional t.line [test, value, otherwise])

/-- An expression whose operators bind at least as tightly as `precedence`. -/
def expressionStep (precedence : Int) : Parse Node := do
  let first ← operand v self
  let expr ← operators v self precedence (← remaining) first
  let t ← current
  if t.kind == .operator && t.value != "=" && !v.knows t.value then
    fail (.unsupportedOperator t.value) t.line
  if precedence == 0 then conditionals self (← remaining) expr else return expr

end Nested

/-! ## Tying the knot -/

/-- An expression nested at most `depth` deep. -/
def nested (v : Vocabulary) : Nat → Int → Parse Node
  | 0, _ => stuck
  | depth + 1, precedence => expressionStep v (nested v depth) precedence

def expression (v : Vocabulary) (precedence : Int) : Parse Node := do
  nested v ((← remaining) + 1) precedence

/-! ## Targets of assignments -/

def targetList : Nat → List Node → Parse (List Node)
  | 0, _ => stuck
  | fuel + 1, done => do
    let t ← current
    if t.kind == .operator && Scanner.isName t.value then
      let _ ← next
    else
      let _ ← expectIn "Only variables can be assigned to" .name []
    if (reserved? t.value).isSome then fail (.assignment t.value) t.line
    let done := Node.ofTarget t.value t.line :: done
    if ← skipMark "," then targetList fuel done else return done.reverse

def targets : Parse (List Node) := do
  targetList ((← remaining) + 1) []

def expressionList (self : Int → Parse Node) : Nat → List Node → Parse (List Node)
  | 0, _ => stuck
  | fuel + 1, done => do
    let expr ← self 0
    if ← skipMark "," then expressionList self fuel (expr :: done)
    else return (expr :: done).reverse

end Stencil.Parse
