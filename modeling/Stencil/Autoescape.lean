import Stencil.Node

/-!
# Escaping of what is printed

With a strategy of escaping, the expression of every print becomes the operand of an `escape` filter
with that strategy.  Constants are left alone, and so are blocks, which escape what they print
themselves, and expressions whose last filter already decides about escaping.
-/

namespace Stencil.Autoescape

def safeFilters : List String := ["raw", "escape", "e"]

def isSafe (expr : Node) : Bool :=
  match expr.kind with
  | .constant | .stringConstant | .parent | .blockCall => true
  | .filter => safeFilters.contains (expr.text "name")
  | _ => expr.isAbsent

def escaped (strategy : String) (expr : Node) : Node :=
  Node.ofCall .filter "escape" expr.line
    [expr, .plain .arguments expr.line [Node.ofString strategy expr.line]]

def printed (strategy : String) : List Node → List Node
  | [] => []
  | expr :: rest => (if isSafe expr then expr else escaped strategy expr) :: rest

mutual

def apply (strategy : String) : Node → Node
  | .absent => .absent
  | .node kind line tag attrs children =>
    if kind == .print then .node kind line tag attrs (printed strategy children)
    else .node kind line tag attrs (applyAll strategy children)

def applyAll (strategy : String) : List Node → List Node
  | [] => []
  | n :: ns => apply strategy n :: applyAll strategy ns

end

end Stencil.Autoescape
