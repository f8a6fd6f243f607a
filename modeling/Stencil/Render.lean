import Stencil.Render.Code

/-!
# Rendering

A template shows its body.  A template that extends another one runs its body, shows nothing of it,
and then shows the other template with its own blocks over the blocks there.

A block is looked for among the blocks in force, then in the template, then up the line of parents.
It gets a copy of the variables, so what it sets is gone when it ends.

Templates call each other through `callsAt`, which is defined by the depth that is left for such
calls.
-/

namespace Stencil

def Environment.frame (env : Environment) (root : String) (t : Template) (context : Nat)
    (blocks : Blocks) : Frame :=
  ⟨env, root, t, context, blocks⟩

namespace Render

def display (env : Environment) (root : String) (calls : Calls) (t : Template) (context : Nat)
    (blocks : Blocks) : Eval String := do
  let frame := env.frame root t context (blocks.atop t.ownBlocks)
  let shown ← frame.run calls t.body
  match t.parent with
  | none => return shown
  | some _ =>
    frame.located t.endMark (calls.displayParent t context frame.blocks)

def parentOf (env : Environment) (root : String) (calls : Calls) (t : Template) (context : Nat) :
    Eval (Option Template) := do
  let frame := env.frame root t context []
  match t.parent with
  | none => return none
  | some e => do
    match ← frame.located t.parentMark (frame.value calls e) with
    | .null => return none
    | .template _ unit => return some (← Eval.templateOf unit)
    | .text name =>
      tryCatch (return some (← Eval.ofTask (env.loadTemplate name))) fun fault =>
        frame.raise 0 (.parentNotLoaded name) (some fault.failure)
    | v => frame.raise 0 (.parentType v.typeName) none

def copyOf (context : Nat) : Eval Nat := do
  match ← Eval.ofAct do Act.newDict (← Act.dictEntries context) with
  | .dict r => return r
  | _ => return context

def runBlock (env : Environment) (root : String) (calls : Calls) (context : Nat) (blocks : Blocks) :
    Block → Eval String
  | .code owner body => do
    let frame := env.frame root owner (← copyOf context) blocks
    frame.run calls body
  | .foreign type => Eval.fail (.plain s!"invalid call of non-function ({type})")

def displayBlock (env : Environment) (root : String) (calls : Calls) (t : Template) (name : String)
    (context : Nat) (blocks : Blocks) (useBlocks : Bool) : Eval String := do
  let found := (if useBlocks then blocks.lookup name else none).or (t.ownBlocks.lookup name)
  match found with
  | some b => runBlock env root calls context blocks b
  | none => do
    match ← parentOf env root calls t context with
    | some parent => calls.displayBlock parent name context (blocks.atop t.ownBlocks) false
    | none =>
      let frame := env.frame root t context blocks
      if (blocks.lookup name).isSome then frame.raise 0 (.blockNotInParent name) none
      else frame.raise 0 (.missingBlock name t.name) none

def displayParentBlock (env : Environment) (root : String) (calls : Calls) (t : Template)
    (name : String) (context : Nat) (blocks : Blocks) : Eval String := do
  match ← parentOf env root calls t context with
  | some parent => calls.displayBlock parent name context blocks false
  | none => (env.frame root t context blocks).raise 0 (.noParentBlock name) none

def displayParent (env : Environment) (root : String) (calls : Calls) (t : Template) (context : Nat)
    (blocks : Blocks) : Eval String := do
  match ← parentOf env root calls t context with
  | some parent => calls.display parent context (blocks.atop t.ownBlocks)
  | none => (env.frame root t context blocks).raise 0 (.noParent t.name) none

def noCalls : Calls :=
  let tooDeep {α : Type} : Eval α := Eval.fail (.plain "templates are nested too deeply")
  ⟨fun _ _ _ => tooDeep, fun _ _ _ _ _ => tooDeep, fun _ _ _ _ => tooDeep, fun _ _ _ => tooDeep⟩

def callsAt (env : Environment) (root : String) : Nat → Calls
  | 0 => noCalls
  | depth + 1 =>
    { display := fun t => display env root (callsAt env root depth) t
      displayBlock := fun t => displayBlock env root (callsAt env root depth) t
      displayParentBlock := fun t => displayParentBlock env root (callsAt env root depth) t
      displayParent := fun t => displayParent env root (callsAt env root depth) t }

/-- How many levels deep templates may call each other. -/
def depth : Nat := 100000

def calls (env : Environment) (root : String) : Calls := callsAt env root depth

/-! ## Whole templates -/

/-- What a rendering fails with: the failure of a template, if there is one in the chain, and else
the failure at the place the template was at. -/
def unwrap (t : Template) (fault : Fault) : Failure :=
  let chain := fault.failure.chain
  match chain.find? Failure.isStuck, chain.find? Failure.isMalformed,
    chain.find? Failure.isRaised, chain.find? Failure.isUnbuildable with
  | some f, _, _, _ => f
  | _, some f, _, _ => f
  | _, _, some f, _ => f
  | _, _, _, some f => f
  | _, _, _, _ => .raised (.stated fault.failure.text) t.name fault.line none

def finish {α : Type} (report : Fault → Failure) (step : Eval α) : Task α := fun w =>
  match step w with
  | .ok a w => .ok a w
  | .error fault w => .error (report fault) w

end Render

namespace Environment

def renderTemplate (env : Environment) (t : Template) (bindings : List (String × Plain)) :
    Task String := do
  match ← Task.ofAct (Plain.context bindings) with
  | .dict r =>
    Render.finish (Render.unwrap t) ((Render.calls env t.unit).display t r [])
  | _ => return ""

/-- Renders the template of a name with some variables. -/
def render (env : Environment) (name : String) (bindings : List (String × Plain)) :
    Task String := do
  let t ← env.loadTemplate name
  env.renderTemplate t bindings

end Environment
end Stencil
