import Stencil.Arithmetic
import Stencil.Compare
import Stencil.Node

/-!
# Programs

What a template does when it is rendered, as expressions that have a value and statements that show
something.

A statement knows the template line a failure of it belongs to, its `mark`.  Names, attributes,
calls and inclusions know the line of their own token as well.
-/

namespace Stencil

inductive Expr
  | constant (value : Attr)
  | context
  | reading (name : String) (lenient : Bool) (line : Int)
  | known (name : String)
  | attr (object item : Expr) (args : List Expr) (access : Node.Access) (defined lenient : Bool)
      (line : Int)
  | array (items : List Expr)
  | hash (parts : List Expr)
  | filter (name : String) (operand : Expr) (args : List Expr) (names : List String)
      (values : List Expr) (line : Int)
  | call (name : String) (args : List Expr) (names : List String) (values : List Expr) (line : Int)
  | test (name : String) (operand : Expr) (args : List Expr) (names : List String)
      (values : List Expr) (line : Int)
  | conditional (condition yes no : Expr)
  | parentBlock (name : String)
  | blockCall (name : Expr)
  | calculate (op : Arithmetic) (left right : Expr)
  | relate (r : Relation) (left right : Expr)
  | negate (operand : Expr)
  | positive (operand : Expr)
  | concat (left right : Expr)
  | startsWith (left right : Expr)
  | endsWith (left right : Expr)
  | member (negated : Bool) (left right : Expr)
  | range (low high : Expr)
  | conj (left right : Expr)
  | disj (left right : Expr)
  | negation (operand : Expr)
  deriving Inhabited

structure LoopFlags where
  /-- The variable `loop`. -/
  withLoop : Bool
  conditional : Bool
  hasElse : Bool
  deriving DecidableEq, Repr

inductive Stmt
  | skip
  | seq (first second : Stmt)
  | text (data : String)
  | print (value : Expr) (mark : Int)
  | block (name : String) (mark : Int)
  | assign (name : String) (value : Expr) (mark : Int)
  | capture (name : String) (body : Stmt) (mark : Int)
  | inclusion (template : Expr) (bindings : Option Expr) (only ignoreMissing : Bool) (line : Int)
      (mark : Int)
  | branch (condition : Expr) (yes no : Stmt) (mark : Int)
  /-- A loop.  It has three marks: for what comes before its rounds, for the question whether there
  were any, and for what comes at the end. -/
  | loop (key value : String) (sequence : Expr) (flags : LoopFlags) (body otherwise : Stmt)
      (mark elseMark endMark : Int)
  | round (flags : LoopFlags) (mark : Int)
  deriving Inhabited

/-- A template that is ready to be rendered. -/
structure Template where
  name : String
  /-- The name of its program, which is different for every name and source. -/
  unit : String
  /-- What it shows, or what happens before the template it extends shows something. -/
  body : Stmt
  parent : Option Expr
  endMark : Int
  /-- The line of a failure in the expression for the parent. -/
  parentMark : Int
  blocks : List (String × Stmt)
  deriving Inhabited

end Stencil
