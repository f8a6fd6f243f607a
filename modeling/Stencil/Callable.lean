import Stencil.Scope

/-!
# Filters, functions and tests

A callable gets the scope it is called in, its arguments by position and by name, and may change the
store.  A filter gets the filtered value, and a test the tested one, as its first argument.  A
callable may give nothing, which is then null.
-/

namespace Stencil

abbrev Callable := Scope → List Value → List (String × Value) → Act (Option Value)

namespace Callable

open Arguments (Parameter)

abbrev Given := List (Option Value)

def Given.value (g : Given) (i : Nat) (default : Value) : Value := ((g[i]?).join).getD default

def Given.text (g : Given) (i : Nat) (default : String) : String :=
  match (g[i]?).join with
  | some (.text s) => s
  | _ => default

def Given.int (g : Given) (i : Nat) (default : Int) : Int :=
  match (g[i]?).join with
  | some (.int i) => i
  | _ => default

def make (callee : String) (parameters : List Parameter) (run : Scope → Given → Act Value) :
    Callable := fun scope args named => do
  match Arguments.bind callee parameters args named with
  | .ok given => return some (← run scope given)
  | .error f => throw f

def ofValue (callee : String) (run : Value → Act Value) : Callable :=
  make callee [Arguments.needed "value"] fun _ given => run (given.value 0 .null)

end Callable
end Stencil
