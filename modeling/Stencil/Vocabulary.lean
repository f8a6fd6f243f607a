import Stencil.Node

/-!
# The vocabulary of a template language

The operators an expression may hold, with their precedence and the nodes they build, and the names
of the filters, functions and tests.  Extensions add to it; `operatorNames` is what the scanner has
to know.
-/

namespace Stencil

inductive Associativity
  | left
  | right
  deriving DecidableEq, Repr

structure UnaryOperator where
  precedence : Int
  kind : Node.Kind
  deriving Repr

inductive RightSide
  | operand (kind : Node.Kind)
  /-- The name of a test; with `negated` the answer is turned round. -/
  | test (negated : Bool)
  deriving DecidableEq, Repr

structure BinaryOperator where
  precedence : Int
  associativity : Associativity
  right : RightSide
  deriving Repr

/-- The least precedence of an operator on the right of this one, as a number of 64 bits. -/
def BinaryOperator.rightPrecedence (op : BinaryOperator) : Int :=
  match op.associativity with
  | .left => (op.precedence + 1).bmod 0x10000000000000000
  | .right => op.precedence

structure Vocabulary where
  unary : List (String × UnaryOperator)
  binary : List (String × BinaryOperator)
  filters : List String
  functions : List String
  tests : List String

namespace Vocabulary

def unary? (v : Vocabulary) (name : String) : Option UnaryOperator := v.unary.lookup name

def binary? (v : Vocabulary) (name : String) : Option BinaryOperator := v.binary.lookup name

def knows (v : Vocabulary) (name : String) : Bool :=
  (v.unary? name).isSome || (v.binary? name).isSome

def operatorNames (v : Vocabulary) : List String :=
  let unary := v.unary.map (·.1)
  let binary := (v.binary.map (·.1)).filter fun name => !unary.contains name
  (unary ++ binary).mergeSort fun a b => a ≤ b

end Vocabulary
end Stencil
