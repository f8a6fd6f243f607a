import Stencil.Render.Loop

/-!
# Running code

What expressions evaluate to and what statements show.  Both follow the structure of the program;
all that leads into other code, of a block or of another template, goes through `Calls`, which is
given from outside.

Operands are evaluated from left to right, with one exception: of `a in b` it is `b` that comes
first.  An operand of `~`, `starts with` and `ends with` is printed before the next one is evaluated.
-/

namespace Stencil

structure Calls where
  /-- Shows a template with some variables, under some blocks. -/
  display : Template → Nat → Blocks → Eval String
  /-- Shows a block as seen from a template.  The flag says whether the blocks in force count, and
  not only those of the template. -/
  displayBlock : Template → String → Nat → Blocks → Bool → Eval String
  displayParentBlock : Template → String → Nat → Blocks → Eval String
  displayParent : Template → Nat → Blocks → Eval String

def Attr.toValue : Attr → Value
  | null => .null
  | bool b => .bool b
  | int i => .int i
  | float f => .float f
  | text s => .text s
  | foreign _ => .null

namespace Frame

/-! ## Expressions -/

def pairsOf : List Value → Entries
  | k :: v :: rest => (k, v) :: pairsOf rest
  | _ => []

/-- The dict of keys and values that follow each other; a key that cannot be one is an error. -/
def hash (parts : List Value) : Act Value :=
  match (Table.filled []).putAll (pairsOf parts) with
  | (t, none) => Act.addDict t
  | (_, some f) => Act.complain ("dict: " ++ f.text)

def truth (v : Value) : Eval Bool := return (← get).store.truth v

def printed (v : Value) : Eval String := Eval.ofAct (Act.print v)

mutual

def value (calls : Calls) (frame : Frame) : Expr → Eval Value
  | .constant c => return c.toValue
  | .context => return .dict frame.context
  | .reading name lenient line =>
    Eval.ofAct (frame.scope.getVariable frame.context name lenient line)
  | .known name => do
    let es ← Eval.ofAct (Act.dictEntries frame.context)
    return .bool (es.get? (.text name)).isSome
  | .attr object item args access defined lenient line => do
    let o ← value calls frame object
    let i ← value calls frame item
    let vs ← values calls frame args
    Eval.ofAct (frame.scope.getAttribute o i vs access defined lenient line)
  | .array items => do Eval.ofAct (Act.newList (← values calls frame items))
  | .hash parts => do Eval.ofAct (hash (← values calls frame parts))
  | .filter name operand args names vs line => do
    let v ← value calls frame operand
    let positional ← values calls frame args
    let named ← namedValues calls frame [] names vs
    frame.invoke (frame.env.registry.filters.get? name) "filter" name (v :: positional) named line
  | .call name args names vs line => do
    let positional ← values calls frame args
    let named ← namedValues calls frame [] names vs
    frame.invoke (frame.env.registry.functions.get? name) "function" name positional named line
  | .test name operand args names vs line => do
    let v ← value calls frame operand
    let positional ← values calls frame args
    let named ← namedValues calls frame [] names vs
    let answer ← frame.invoke (frame.env.registry.tests.get? name) "test" name (v :: positional)
      named line
    return .bool (← truth answer)
  | .conditional condition yes no => do
    if ← truth (← value calls frame condition) then value calls frame yes
    else value calls frame no
  | .parentBlock name => do
    return .text (← calls.displayParentBlock frame.template name frame.context frame.blocks)
  | .blockCall e => do
    let name ← printed (← value calls frame e)
    return .text (← calls.displayBlock frame.template name frame.context frame.blocks true)
  | .calculate op l r => do
    let a ← value calls frame l
    let b ← value calls frame r
    Eval.ofAct (frame.scope.calculate op a b)
  | .relate rel l r => do
    let a ← value calls frame l
    let b ← value calls frame r
    return .bool (← Eval.ofAct (frame.scope.relate rel a b))
  | .negate e => do Eval.ofAct (frame.scope.negate (← value calls frame e))
  | .positive e => do Eval.ofAct (frame.scope.positive (← value calls frame e))
  | .concat l r => do
    let a ← printed (← value calls frame l)
    let b ← printed (← value calls frame r)
    return .text (a ++ b)
  | .startsWith l r => do
    let a ← printed (← value calls frame l)
    let b ← printed (← value calls frame r)
    return .bool (Text.startsWith a b)
  | .endsWith l r => do
    let a ← printed (← value calls frame l)
    let b ← printed (← value calls frame r)
    return .bool (Text.endsWith a b)
  | .member negated l r => do
    let haystack ← value calls frame r
    let needle ← value calls frame l
    return .bool (negated != (← get).store.contains haystack needle)
  | .range l r => do
    let a ← value calls frame l
    let b ← value calls frame r
    Eval.ofAct (frame.scope.range a b (.int 1))
  | .conj l r => do
    if ← truth (← value calls frame l) then return .bool (← truth (← value calls frame r))
    else return .bool false
  | .disj l r => do
    if ← truth (← value calls frame l) then return .bool true
    else return .bool (← truth (← value calls frame r))
  | .negation e => do return .bool (!(← truth (← value calls frame e)))

def values (calls : Calls) (frame : Frame) : List Expr → Eval (List Value)
  | [] => return []
  | e :: es => do
    let v ← value calls frame e
    return v :: (← values calls frame es)

/-- The values of named arguments, after those there are; a name may come only once. -/
def namedValues (calls : Calls) (frame : Frame) (before : List (String × Value)) :
    List String → List Expr → Eval (List (String × Value))
  | _, [] => return before
  | names, e :: es => do
    let v ← value calls frame e
    let name := names.headD ""
    if (before.lookup name).isSome then Eval.fail (.plain ("duplicate key: " ++ Text.quoted name))
    else namedValues calls frame (before ++ [(name, v)]) names.tail es

end

def valueIfAny (calls : Calls) (frame : Frame) : Option Expr → Eval Value
  | none => return .null
  | some e => value calls frame e

/-! ## Other templates -/

mutual

def resolve (frame : Frame) (ignoreMissing : Bool) (line : Int) : Datum → Eval (Option Template)
  | .template _ unit => do return some (← Eval.templateOf unit)
  | .list items => resolveFirst frame ignoreMissing line [] items
  | .tuple items => resolveFirst frame ignoreMissing line [] items
  | d =>
    let name := d.print
    tryCatch (return some (← Eval.ofTask (frame.env.loadTemplate name))) fun fault =>
      if ignoreMissing && fault.failure.saysMissing then return none
      else frame.raiseFrom line (.notLoaded name) fault.failure

/-- The first template that exists of several; those tried before are given. -/
def resolveFirst (frame : Frame) (ignoreMissing : Bool) (line : Int) (tried : List String) :
    List Datum → Eval (Option Template)
  | [] =>
    if ignoreMissing then return none
    else frame.raise line (.noneOf (String.intercalate ", " tried)) (some .nothingFound)
  | d :: ds => do
    match ← resolve frame true line d with
    | some t => return some t
    | none => resolveFirst frame ignoreMissing line (tried ++ [d.print]) ds

end

def resolveValue (frame : Frame) (v : Value) (ignoreMissing : Bool) (line : Int) :
    Eval (Option Template) := do
  frame.resolve ignoreMissing line ((← get).store.view v)

def given (frame : Frame) (bindings : Value) (line : Int) : Eval Entries :=
  match bindings with
  | .null => return []
  | .dict r => Eval.ofAct (Act.dictEntries r)
  | v => frame.raise line (.includeVariables v.typeName) none

def inherited (frame : Frame) (only : Bool) : Eval Entries :=
  if only then return [] else Eval.ofAct (Act.dictEntries frame.context)

/-- Shows another template, with the variables there are, with more of them, or with those alone. -/
def inclusion (calls : Calls) (frame : Frame) (name bindings : Value) (only ignoreMissing : Bool)
    (line : Int) : Eval String := do
  let extra ← frame.given bindings line
  let base ← frame.inherited only
  match ← frame.resolveValue name ignoreMissing line with
  | none => return ""
  | some t => do
    match ← Eval.ofAct (Act.newDict (Entries.merge base extra)) with
    | .dict r => calls.display t r []
    | _ => return ""

/-! ## Statements -/

def rounds (frame : Frame) (key value : String) (body : Eval String) : List Value → Eval String
  | [] => return ""
  | pair :: rest => do
    let (k, v) := Loop.ofPair pair
    Eval.ofAct (Loop.put frame.context key k)
    Eval.ofAct (Loop.put frame.context value v)
    let shown ← body
    return shown ++ (← rounds frame key value body rest)

/-- Goes through the list of a loop, which cannot be changed meanwhile. -/
def looping (frame : Frame) (key value : String) (body : Eval String) : Eval String := do
  let seq ← Eval.ofAct (Loop.need frame.context "_seq")
  let items := ((← get).store.items? seq).getD []
  Eval.ofAct (Loop.setLoops seq (· + 1))
  let shown ← rounds frame key value body items
  Eval.ofAct (Loop.setLoops seq (· - 1))
  return shown

/-- Whether a loop that keeps account of it has had no round. -/
def hadNone (frame : Frame) (flags : LoopFlags) : Eval Bool :=
  if flags.hasElse then do
    let iterated ← Eval.ofAct (Loop.need frame.context "_iterated")
    return !Loop.holds (← get).store iterated
  else return false

def onlyIf (taken : Bool) (step : Eval String) : Eval String := if taken then step else return ""

def run (calls : Calls) (frame : Frame) : Stmt → Eval String
  | .skip => return ""
  | .seq first second => do
    let shown ← run calls frame first
    return shown ++ (← run calls frame second)
  | .text data => return data
  | .print e mark => frame.located mark do printed (← value calls frame e)
  | .block name mark =>
    frame.located mark (calls.displayBlock frame.template name frame.context frame.blocks true)
  | .assign name e mark => frame.located mark do
    let v ← value calls frame e
    Eval.ofAct (Loop.put frame.context name v)
    return ""
  | .capture name body mark => frame.located mark do
    let shown ← run calls frame body
    Eval.ofAct (Loop.put frame.context name (.text shown))
    return ""
  | .inclusion template bindings only ignoreMissing line mark => frame.located mark do
    let name ← value calls frame template
    let extra ← valueIfAny calls frame bindings
    frame.inclusion calls name extra only ignoreMissing line
  | .branch condition yes no mark => do
    if ← frame.located mark do truth (← value calls frame condition) then run calls frame yes
    else run calls frame no
  | .loop key val sequence flags body otherwise mark elseMark endMark => do
    frame.located mark do
      Eval.ofAct (Loop.save frame.context)
      let seq ← value calls frame sequence
      Eval.ofAct (Loop.enter frame.context flags seq)
    let shown ← frame.located mark (looping frame key val (run calls frame body))
    let none ← frame.located elseMark (hadNone frame flags)
    let instead ← onlyIf none (run calls frame otherwise)
    frame.located endMark (Eval.ofAct (frame.scope.leaveScope frame.context [key, val]))
    return shown ++ instead
  | .round flags mark => frame.located mark do
    Eval.ofAct (Loop.endRound frame.context flags)
    return ""

end Frame
end Stencil
