import Stencil.Callable
import Stencil.Dump
import Stencil.Operation

/-!
# The functions of the language
-/

namespace Stencil.Language

open Arguments (needed optional)
open Callable (make)

def rangeFunction : Callable :=
  make "range" [needed "low", needed "high", optional "step" .anything] fun scope given =>
    scope.range (given.value 0 .null) (given.value 1 .null) (given.value 2 (.int 1))

/-- `dump`: the arguments for inspection, each followed by a line end, when debugging is on. -/
def dumpFunction : Callable := fun scope args named => do
  if !named.isEmpty then Act.complain "dump: unexpected named arguments"
  else if !scope.options.debug then return some (.text "")
  else
    let shown := (← args.mapM Act.toPlain).map fun p => Dump.describe scope.host p ++ "\n"
    return some (.text (String.join shown))

/-- The best of several values, where one that is in a relation to another is better. -/
def bestOf (better : Relation) (best : Value) : List Value → Act Value
  | [] => return best
  | v :: vs => do
    if ← Act.compare better v best then bestOf better v vs else bestOf better best vs

/-- The values among which `max` and `min` look: the arguments, or the items of a single container. -/
def candidates (args : List Value) : Act (List Value) :=
  match args with
  | [v] => if v.isContainer then Act.valuesOf v else return [v]
  | args => return args

def bestAmong (name : String) (better : Relation) : List Value → Act (Option Value)
  | [] => Act.complain s!"{name}() expects at least one value."
  | first :: rest =>
    tryCatch (return some (← bestOf better first rest)) fun f => throw (.explained name f)

/-- `max` and `min`: the best of the arguments, or of the items of a single container. -/
def extremum (name : String) (better : Relation) : Callable := fun _ args named =>
  if named.isEmpty then do bestAmong name better (← candidates args)
  else Act.complain s!"{name}: unexpected named arguments"

def functions : List (String × Callable) :=
  [("range", rangeFunction),
   ("dump", dumpFunction),
   ("max", extremum "max" .gt),
   ("min", extremum "min" .lt)]

end Stencil.Language
