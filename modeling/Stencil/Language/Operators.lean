import Stencil.Vocabulary

/-!
# The operators of the language

The table of unary and binary operators every template may use, loosest first.
-/

namespace Stencil.Language

def unaryOperators : List (String × UnaryOperator) :=
  [("not", ⟨50, .negation⟩), ("-", ⟨500, .neg⟩), ("+", ⟨500, .pos⟩)]

def leftward (precedence : Int) (kind : Node.Kind) : BinaryOperator :=
  ⟨precedence, .left, .operand kind⟩

def binaryOperators : List (String × BinaryOperator) :=
  [("or", leftward 10 .disj), ("and", leftward 15 .conj),
   ("b-or", leftward 16 .bitOr), ("b-xor", leftward 17 .bitXor), ("b-and", leftward 18 .bitAnd),
   ("==", leftward 20 .equal), ("!=", leftward 20 .notEqual),
   ("<", leftward 20 .less), (">", leftward 20 .greater),
   (">=", leftward 20 .greaterEqual), ("<=", leftward 20 .lessEqual),
   ("not in", leftward 20 .notMember), ("in", leftward 20 .member),
   ("starts with", leftward 20 .startsWith), ("ends with", leftward 20 .endsWith),
   ("..", leftward 25 .range),
   ("+", leftward 30 .add), ("-", leftward 30 .sub), ("~", leftward 40 .concat),
   ("*", leftward 60 .mul), ("/", leftward 60 .div), ("//", leftward 60 .floorDiv),
   ("%", leftward 60 .remainder),
   ("is", ⟨100, .left, .test false⟩), ("is not", ⟨100, .left, .test true⟩),
   ("**", ⟨200, .right, .operand .power⟩)]

end Stencil.Language
