import Stencil.Container
import Stencil.Host
import Stencil.Options

/-!
# Where an operation runs

Operations know the template they run in, so that their failures can name it, the options, the
objects of the embedding program, and the methods of containers.
-/

namespace Stencil

structure Scope where
  template : String
  options : Options
  host : Host
  methods : Container.Methods

def Scope.raise {α : Type} (scope : Scope) (line : Int) (reason : Raised)
    (cause : Option Failure) : Act α :=
  throw (.raised reason scope.template line cause)

end Stencil
