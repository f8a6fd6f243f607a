import Stencil.Parse.Expression

/-!
# Reading templates

A template is a list of statements: text, prints and tags.  `statements` reads them up to the end or
up to a tag that ends the body they belong to, and hands each tag to the grammar.

A template that extends another one shows nothing of its own outside its blocks: `withoutOutput`
drops what would be shown and refuses text that is not blank.
-/

namespace Stencil.Parse

def joined (nodes : List Node) (line : Int) : Node :=
  match nodes with
  | [n] => n
  | ns => Node.ofBody ns line

/-- The tag that starts at the current token, after its opening delimiter: nothing when it ends the
body, else the node it builds, if any. -/
def tagStatement (g : Grammar) (hooks : Hooks) (stop : Option Stop) :
    Parse (Option (Option Node)) := do
  let t ← current
  if t.kind != .name then fail .missingTagName t.line
  if stop.any (·.names.contains t.value) then
    if stop.any (·.consume) then
      let _ ← next
    return none
  match g.tag? t.value with
  | none =>
    if stop.isSome then fail (.unexpectedTag t.value) t.line
    fail (.unknownTag t.value) t.line
  | some tag =>
    let _ ← next
    let node ← tag.parse hooks t
    return some (node.map (Node.withTag tag.name))

def statementList (g : Grammar) (hooks : Hooks) (stop : Option Stop) :
    Nat → List Node → Parse (List Node)
  | 0, _ => stuck
  | fuel + 1, done => do
    let t ← current
    match t.kind with
    | .endOfTemplate =>
      if stop.isSome then fail .unexpectedEnd t.line
      return done.reverse
    | .text =>
      let _ ← next
      statementList g hooks stop fuel (Node.ofText t.value t.line :: done)
    | .printStart =>
      let _ ← next
      let expr ← hooks.expression 0
      let _ ← expect .printEnd []
      statementList g hooks stop fuel (Node.ofPrint expr t.line :: done)
    | .blockStart =>
      let _ ← next
      match ← tagStatement g hooks stop with
      | none => return done.reverse
      | some none => statementList g hooks stop fuel done
      | some (some node) => statementList g hooks stop fuel (node :: done)
    | _ => fail .misplacedToken t.line

def statements (g : Grammar) : Nat → Option Stop → Parse Node
  | 0, _ => stuck
  | depth + 1, stop => do
    let line := (← current).line
    let hooks : Hooks :=
      { vocabulary := g.vocabulary
        expression := expression g.vocabulary
        body := fun stop => statements g depth (some stop) }
    let nodes ← statementList g hooks stop (← remaining) []
    return joined nodes line

/-! ## Templates that extend another one -/

mutual

/-- A statement of a template that extends another one, without what it would show. -/
def withoutOutput : Node → Parse (Option Node)
  | .absent => return none
  | .node kind line tag attrs children =>
    match kind with
    | .text =>
      if Text.allBlank ((Node.node kind line tag attrs children).text "data") then return none
      else fail .contentOutsideBlocks line
    | .print => return none
    | .blockReference => return none
    | .body => do
      let kept ← allWithoutOutput children
      return some (Node.ofBody kept line)
    | _ => return some (.node kind line tag attrs children)

/-- Statements of a template that extends another one, without what they would show. -/
def allWithoutOutput : List Node → Parse (List Node)
  | [] => return []
  | n :: ns => do
    let first ← withoutOutput n
    let rest ← allWithoutOutput ns
    return first.toList ++ rest

end

def blockNode (b : BlockDraft) : Node :=
  .node .block b.line "" [("name", .text b.name)] [b.body]

def template (g : Grammar) : Parse Node := do
  let body ← statements g ((← remaining) + 1) none
  let s ← get
  let blocks := s.blocks.map blockNode
  match s.parent with
  | none => return Node.ofModule body .absent blocks s.stream.template
  | some parent =>
    let kept := (← withoutOutput body).getD (Node.ofBody [] 1)
    return Node.ofModule kept parent blocks s.stream.template

def tree (g : Grammar) (stream : TokenStream) : Except Failure Node :=
  match template g { stream, blocks := [], openBlocks := [], parent := none } with
  | .ok (n, _) => .ok n
  | .error e => .error e

end Stencil.Parse
