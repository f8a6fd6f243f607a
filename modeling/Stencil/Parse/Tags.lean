import Stencil.Parse.Expression

/-!
# The tags of the language

`for`, `if`, `block`, `set`, `include` and `extends`.  Each reads what follows its name up to the end
of its last delimiter, with the hooks it is given for expressions and bodies.

The body of a block is stored with the parse; its tag leaves a reference in place.  `extends` leaves
nothing at all.
-/

namespace Stencil.Parse

def blockEnd : Parse Unit := do
  let _ ← expect .blockEnd []

/-! ## Loops -/

/-- The three flags both ends of a loop carry: whether its body mentions `loop`, whether it has a
condition, and whether it has an else body. -/
def loopFlags (withLoop conditional otherwise : Bool) : List (String × Attr) :=
  [("with_loop", .bool withLoop), ("ifexpr", .bool conditional), ("else", .bool otherwise)]

def loopRound (flags : List (String × Attr)) (line : Int) (body : Node) : Node :=
  Node.ofBody [body, .node .loopEnd line "" flags []] body.line

/-- What is run for a pair: a round, under the condition if there is one. -/
def loopPass (flags : List (String × Attr)) (line : Int) (condition body : Node) : Node :=
  if condition.isAbsent then loopRound flags line body
  else .plain .branch line [Node.ofBody [condition, loopRound flags line body] line, .absent]

def flaggedLoop (flags : List (String × Attr)) (line : Int)
    (key value sequence condition body otherwise : Node) : Node :=
  let attrs :=
    ("key_target", .text (key.text "name")) :: ("value_target", .text (value.text "name")) :: flags
  .node .loop line "" attrs [key, value, sequence, loopPass flags line condition body, otherwise]

def loopNode (line : Int) (key value sequence condition body otherwise : Node) : Node :=
  flaggedLoop (loopFlags (body.names "loop") (!condition.isAbsent) (!otherwise.isAbsent)) line
    key value sequence condition body otherwise

/-- `{% for key, value in sequence if condition %} … {% else %} … {% endfor %}` -/
def forTag : Tag where
  name := "for"
  parse hooks t := do
    let targets ← targets
    if 2 < targets.length then fail .loopTargets t.line
    let _ ← expect .operator ["in"]
    let sequence ← hooks.expression 0
    let condition ←
      if (← nextIf .name ["if"]).isSome then hooks.expression 0 else pure .absent
    blockEnd
    let body ← hooks.body ⟨["else", "endfor"], false⟩
    let otherwise ←
      if (← next).value == "else" then do
        blockEnd
        hooks.body ⟨["endfor"], true⟩
      else pure .absent
    blockEnd
    let (key, value) := match targets with
      | [key, value] => (key, value)
      | value :: _ => (Node.ofTarget "_key" t.line, value)
      | [] => (.absent, .absent)
    return some (loopNode t.line key value sequence condition body otherwise)

/-! ## Branches -/

def branches (hooks : Hooks) (line : Int) : Nat → Node → List Node → Parse (List Node × Node)
  | 0, _, _ => stuck
  | fuel + 1, condition, done => do
    blockEnd
    let body ← hooks.body ⟨["elseif", "else", "endif"], false⟩
    let done := body :: condition :: done
    let t ← next
    match t.value with
    | "elseif" =>
      let condition ← hooks.expression 0
      branches hooks line fuel condition done
    | "else" =>
      blockEnd
      let otherwise ← hooks.body ⟨["endif"], true⟩
      return (done.reverse, otherwise)
    | "endif" => return (done.reverse, .absent)
    | _ => fail (.unclosedIf line) t.line

/-- `{% if condition %} … {% elseif condition %} … {% else %} … {% endif %}` -/
def ifTag : Tag where
  name := "if"
  parse hooks t := do
    let condition ← hooks.expression 0
    let (tests, otherwise) ← branches hooks t.line (← remaining) condition []
    blockEnd
    return some (.plain .branch t.line [Node.ofBody tests t.line, otherwise])

/-! ## Blocks and inheritance -/

def openBlock (name : String) (line : Int) : Parse Unit := modify fun s =>
  { s with blocks := s.blocks ++ [⟨name, line, .absent⟩], openBlocks := name :: s.openBlocks }

def closeBlock (name : String) (body : Node) : Parse Unit := modify fun s =>
  { s with
    blocks := s.blocks.map fun b => if b.name == name then { b with body } else b
    openBlocks := s.openBlocks.tail }

/-- `{% block name %} … {% endblock name %}` or `{% block name expression %}` -/
def blockTag : Tag where
  name := "block"
  parse hooks t := do
    let name ← expect .name []
    match (← get).blocks.find? (·.name == name.value) with
    | some earlier => fail (.blockRedefined name.value earlier.line) name.line
    | none => pure ()
    openBlock name.value t.line
    let body ←
      if (← nextIf .blockEnd []).isSome then do
        let body ← hooks.body ⟨["endblock"], true⟩
        match ← nextIf .name [] with
        | some given =>
          if given.value != name.value then
            fail (.blockMismatch name.value given.value) given.line
        | none => pure ()
        pure body
      else do
        let expr ← hooks.expression 0
        pure (Node.ofPrint expr t.line)
    blockEnd
    closeBlock name.value body
    return some (Node.leaf .blockReference t.line "name" name.value)

/-- `{% extends template %}` -/
def extendsTag : Tag where
  name := "extends"
  parse hooks t := do
    if !(← get).openBlocks.isEmpty then fail .extendsInBlock t.line
    if (← get).parent.isSome then fail .extendsTwice t.line
    let parent ← hooks.expression 0
    blockEnd
    modify fun s => { s with parent := some parent }
    return none

/-! ## Assignments and includes -/

/-- `{% set names = values %}` or `{% set name %} … {% endset %}` -/
def setTag : Tag where
  name := "set"
  parse hooks t := do
    let names ← targets
    let node (capture : Bool) (values : List Node) : Node :=
      .node .assign t.line "" [("capture", .bool capture)]
        [Node.ofBody names t.line, Node.ofBody values t.line]
    if (← nextIf .operator ["="]).isSome then
      let values ← expressionList hooks.expression ((← remaining) + 1) []
      blockEnd
      if names.length != values.length then fail .assignmentCount t.line
      return some (node false values)
    if 1 < names.length then fail .captureTargets t.line
    blockEnd
    let body ← hooks.body ⟨["endset"], true⟩
    blockEnd
    return some (node true [body])

/-- `{% include template ignore missing with variables only %}` -/
def includeTag : Tag where
  name := "include"
  parse hooks t := do
    let template ← hooks.expression 0
    let optional := (← nextIf .name ["ignore"]).isSome
    if optional then
      let _ ← expect .name ["missing"]
    let bindings ←
      if (← nextIf .name ["with"]).isSome then hooks.expression 0 else pure .absent
    let only := (← nextIf .name ["only"]).isSome
    blockEnd
    return some (.node .inclusion t.line "" [("only", .bool only), ("ignore_missing", .bool optional)]
      [template, bindings])

def coreTags : List Tag := [forTag, ifTag, blockTag, setTag, includeTag, extendsTag]

end Stencil.Parse
