import Stencil.Render

/-!
# The services of a template

What the program of a template calls while it runs, by name and with arguments that are only known
when it is called.  Every service checks the number and the types of its arguments first.
-/

namespace Stencil.Service

open Arguments (Want)

/-- What a service takes: how many arguments at least, and what they have to be. -/
structure Signature where
  least : Nat
  wants : List Want
  deriving Repr

def all (wants : List Want) : Signature := ⟨wants.length, wants⟩

def signatures : List (String × Signature) :=
  [("call", all [.text, .list, .dict, .int]),
   ("contains", all [.anything, .anything]),
   ("display_block", all [.text, .dict, .dict, .bool]),
   ("display_parent", all [.dict, .dict]),
   ("dynamic", all [.anything]),
   ("filter", all [.text, .anything, .list, .dict, .int]),
   ("get_attribute", all [.anything, .anything, .list, .text, .bool, .bool, .int]),
   ("get_context", all [.dict, .text, .bool, .int]),
   ("include", all [.dict, .anything, .anything, .bool, .bool, .int]),
   ("iterate", all [.anything]),
   ("leave_scope", all [.dict, .list]),
   ("range", ⟨2, [.anything, .anything, .anything]⟩),
   ("render_block", all [.anything, .dict, .dict]),
   ("render_parent_block", all [.text, .dict, .dict]),
   ("test", all [.text, .anything, .list, .dict, .int]),
   ("to_bool", all [.anything]),
   ("to_string", all [.anything])]

def names : List String := signatures.map (·.1)

inductive Result
  | value (v : Value)
  | operand (v : Value)

def namedArgs (es : Entries) : List (String × Value) :=
  es.map fun
    | (.text name, v) => (name, v)
    | (_, v) => ("", v)

def foreignBlocks (es : Entries) : Blocks :=
  (namedArgs es).map fun (name, v) => (name, .foreign v.type)

def perform (env : Environment) (t : Template) (name : String) (args : List Value) :
    Eval Value := do
  let calls := Render.calls env t.unit
  let frame (context : Nat) : Frame := env.frame t.unit t context []
  let items (r : Nat) : Eval (List Value) := Eval.ofAct (Act.listItems r)
  let entries (r : Nat) : Eval Entries := Eval.ofAct (Act.dictEntries r)
  let scope := env.scope t.name
  match name, args with
  | "get_context", [.dict c, .text key, .bool lenient, .int line] =>
    Eval.ofAct (scope.getVariable c key lenient line)
  | "get_attribute", [o, item, .list l, .text access, .bool defined, .bool lenient, .int line] => do
    Eval.ofAct (scope.getAttribute o item (← items l) (Program.accessOf access) defined lenient line)
  | "to_string", [v] => return .text (← Frame.printed v)
  | "to_bool", [v] => return .bool (← Frame.truth v)
  | "contains", [haystack, needle] => return .bool ((← get).store.contains haystack needle)
  | "range", low :: high :: rest => Eval.ofAct (scope.range low high (rest.headD (.int 1)))
  | "iterate", [v] => Eval.ofAct (Act.iterate v)
  | "leave_scope", [.dict c, .list l] => do
    let targets ← (← items l).mapM Frame.printed
    Eval.ofAct (scope.leaveScope c targets)
    return .null
  | "filter", [.text n, v, .list l, .dict d, .int line] => do
    (frame 0).invoke (env.registry.filters.get? n) "filter" n (v :: (← items l))
      (namedArgs (← entries d)) line
  | "call", [.text n, .list l, .dict d, .int line] => do
    (frame 0).invoke (env.registry.functions.get? n) "function" n (← items l)
      (namedArgs (← entries d)) line
  | "test", [.text n, v, .list l, .dict d, .int line] => do
    let answer ← (frame 0).invoke (env.registry.tests.get? n) "test" n (v :: (← items l))
      (namedArgs (← entries d)) line
    return .bool (← Frame.truth answer)
  | "include", [.dict c, n, bindings, .bool only, .bool ignoreMissing, .int line] => do
    return .text (← (frame c).inclusion calls n bindings only ignoreMissing line)
  | "display_block", [.text n, .dict c, .dict b, .bool useBlocks] => do
    return .text (← calls.displayBlock t n c (foreignBlocks (← entries b)) useBlocks)
  | "render_block", [n, .dict c, .dict b] => do
    return .text (← calls.displayBlock t (← Frame.printed n) c (foreignBlocks (← entries b)) true)
  | "render_parent_block", [.text n, .dict c, .dict b] => do
    return .text (← calls.displayParentBlock t n c (foreignBlocks (← entries b)))
  | "display_parent", [.dict c, .dict b] => do
    return .text (← calls.displayParent t c (foreignBlocks (← entries b)))
  | _, _ => return .null

def call (env : Environment) (t : Template) (name : String) (args : List Value) : Task Result :=
  match signatures.lookup name with
  | none => throw (.plain ("no service " ++ name))
  | some s => do
    match Arguments.positional name s.least s.wants args with
    | .error f => throw f
    | .ok _ =>
      if name == "dynamic" then return .operand (args.headD .null)
      else return .value (← Render.finish Fault.failure (perform env t name args))

end Stencil.Service
