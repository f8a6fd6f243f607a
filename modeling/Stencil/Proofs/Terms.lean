import Stencil.Proofs.Spelling
import Stencil.Proofs.Walking

/-!
# Expressions and how they are printed

A `Term` is an expression as it is meant: constants and variables, arrays and hashes, items of
objects, calls, conditionals, and the operators of the language. `Term.node` is the syntax tree it
stands for, on no line in particular, and `Term.print` are the tokens it is printed with.

The printing leaves nothing to precedence. An operand that is itself an operator, a test or a
conditional stands in parentheses, and so does a key of a hash unless it is a string or an integer.
A `Layout` may ask for more of them: it chooses freely which other operands are enclosed, and
whether a filter or a test without arguments is followed by an empty pair.

Terms cannot be built wrongly. The filters, functions and tests are those of a vocabulary,
operators are entries of the two tables of the language, a name is never a word for a constant, and
only calls have named arguments.
-/

namespace Stencil

open List

/-! ## Syntax trees without lines -/

namespace Node

mutual

def unlined : Node → Node
  | absent => absent
  | node kind _ tag attrs children => node kind 0 tag attrs (allUnlined children)

def allUnlined : List Node → List Node
  | [] => []
  | n :: ns => n.unlined :: allUnlined ns

end

theorem allUnlined_eq (ns : List Node) : allUnlined ns = ns.map unlined := by
  induction ns with
  | nil => rfl
  | cons n ns ih => rw [allUnlined, ih, map_cons]

@[simp] theorem unlined_node (kind : Kind) (line : Int) (tag : String)
    (attrs : List (String × Attr)) (children : List Node) :
    (node kind line tag attrs children).unlined =
      node kind 0 tag attrs (children.map unlined) := by
  rw [unlined, allUnlined_eq]

@[simp] theorem kind_unlined (n : Node) : n.unlined.kind = n.kind := by
  cases n <;> rfl

theorem children_unlined (n : Node) : n.unlined.children = n.children.map unlined := by
  cases n with
  | absent => rfl
  | node => simp [children]

@[simp] theorem text_unlined (n : Node) (key : String) : n.unlined.text key = n.text key := by
  cases n <;> rfl

end Node

/-! ## Terms -/

/-- A name that is no word for a constant, whatever its case. -/
abbrev Variable := { name : String // Text.lower name ∉ ["true", "false", "none", "null"] }

theorem lower_eq_self {name : String} (small : name.toList.map Text.toLower = name.toList) :
    Text.lower name = name := by
  rw [← String.toList_inj, Text.lower, String.toList_map, small]

def Variable.small (name : String) (small : name.toList.map Text.toLower = name.toList)
    (other : name ∉ ["true", "false", "none", "null"]) : Variable :=
  ⟨name, by rwa [lower_eq_self small]⟩

abbrev Vocabulary.Function (v : Vocabulary) :=
  { name : Variable // name.1 ∈ v.functions ∧ name.1 ∉ ["parent", "block"] }

structure Vocabulary.Test (v : Vocabulary) where
  first : String
  second : Option String
  registered : (second.elim first fun word => first ++ " " ++ word) ∈ v.tests

def Vocabulary.Test.name {v : Vocabulary} (t : v.Test) : String :=
  t.second.elim t.first fun word => t.first ++ " " ++ word

abbrev Unary := { op : String × UnaryOperator // op ∈ Language.unaryOperators }

abbrev Binary (right : RightSide) :=
  { op : String × BinaryOperator // op ∈ Language.binaryOperators ∧ op.2.right = right }

abbrev Whole := Fin (2 ^ 63)

inductive Member
  | name (name : String)
  | number (n : Whole)

/-- An expression in the words of a vocabulary. -/
inductive Term (v : Vocabulary)
  | name (name : Variable)
  | bool (b : Bool)
  | null
  | int (n : Whole)
  | string (s : String)
  | array (items : List (Term v))
  | hash (entries : List (Term v × Term v))
  /-- `object.member` -/
  | item (object : Term v) (member : Member)
  /-- `object.member(arguments)` -/
  | method (object : Term v) (member : Member) (arguments : List (Term v))
  /-- `object[key]` -/
  | subscript (object key : Term v)
  | filter (name : { name : String // name ∈ v.filters }) (operand : Term v)
      (arguments : List (Option Variable × Term v))
  | call (name : v.Function) (arguments : List (Option Variable × Term v))
  /-- The function `block`, which takes one argument without a name. -/
  | block (argument : Term v)
  | test (negated : Bool) (op : Binary (.test negated)) (subject : Term v) (test : v.Test)
      (arguments : List (Option Variable × Term v))
  | conditional (condition value otherwise : Term v)
  | unary (op : Unary) (operand : Term v)
  | binary (kind : Node.Kind) (op : Binary (.operand kind)) (left right : Term v)

/-- A vocabulary has the operators of the language, and leaves `=` to named arguments. -/
structure Vocabulary.Standard (v : Vocabulary) : Prop where
  unary : ∀ op ∈ Language.unaryOperators, v.unary? op.1 = some op.2
  binary : ∀ op ∈ Language.binaryOperators, v.binary? op.1 = some op.2
  equals : v.binary? "=" = none

/-! ## The trees they stand for -/

def Member.node : Member → Node
  | .name s => .ofString s 0
  | .number n => .ofConstant (.int n) 0

def Node.labelled (value : Node) (label : Option Variable) : Node :=
  label.elim value fun n => .ofCall .namedArgument n.1 0 [value]

def Node.ofTest (negated : Bool) (name : String) (line : Int) (subject arguments : Node) : Node :=
  let found := .ofCall .test name line [subject, arguments]
  if negated then .plain .negation line [found] else found

namespace Term

variable {v : Vocabulary}

mutual

def node : Term v → Node
  | name n => .ofName n.1 0
  | bool b => .ofConstant (.bool b) 0
  | null => .ofConstant .null 0
  | int n => .ofConstant (.int n) 0
  | string s => .ofString s 0
  | array items => .plain .array 0 (nodes items)
  | hash entries => .plain .hash 0 (entryNodes entries)
  | item object member => .ofAccess object.node member.node (.plain .arguments 0 []) .any 0
  | method object member arguments =>
    .ofAccess object.node member.node (.plain .arguments 0 (nodes arguments)) .method 0
  | subscript object key => .ofAccess object.node key.node (.plain .arguments 0 []) .key 0
  | filter f operand arguments =>
    .ofCall .filter f.1 0 [operand.node, .plain .arguments 0 (argumentNodes arguments)]
  | call f arguments => .ofCall .call f.1.1 0 [.plain .arguments 0 (argumentNodes arguments)]
  | block argument => .plain .blockCall 0 [argument.node]
  | test negated _ subject t arguments =>
    .ofTest negated t.name 0 subject.node (.plain .arguments 0 (argumentNodes arguments))
  | conditional condition value otherwise =>
    .plain .conditional 0 [condition.node, value.node, otherwise.node]
  | unary op operand => .plain op.1.2.kind 0 [operand.node]
  | binary kind _ left right => .plain kind 0 [left.node, right.node]

def nodes : List (Term v) → List Node
  | [] => []
  | e :: rest => e.node :: nodes rest

def entryNodes : List (Term v × Term v) → List Node
  | [] => []
  | (key, value) :: rest => key.node :: value.node :: entryNodes rest

def argumentNodes : List (Option Variable × Term v) → List Node
  | [] => []
  | (label, value) :: rest => value.node.labelled label :: argumentNodes rest

end

/-! ## Printing -/

def isCompound : Term v → Bool
  | test .. | conditional .. | unary .. | binary .. => true
  | _ => false

def isKey : Term v → Bool
  | int _ | string _ => true
  | _ => false

end Term

/-- What a printing is free to choose. -/
structure Layout (v : Vocabulary) where
  /-- The operands that are enclosed although they need not be. -/
  encloses : Term v → Bool
  /-- Whether a filter or a test without arguments is followed by parentheses. -/
  callsAll : Bool

abbrev Content := Token.Kind × String

namespace Content

abbrev mark (value : String) : Content := (.punctuation, value)

def enclosed (ts : List Content) : List Content := mark "(" :: (ts ++ [mark ")"])

@[simp] theorem length_enclosed (ts : List Content) : (enclosed ts).length = ts.length + 2 := by
  simp [enclosed]

def labelled (label : Option Variable) (ts : List Content) : List Content :=
  label.elim ts fun n => (.name, n.1) :: (.operator, "=") :: ts

def separated : List (List Content) → List Content
  | [] => []
  | first :: rest => first ++ rest.flatMap (mark "," :: ·)

end Content

open Content

def Member.print : Member → Content
  | .name s => (.name, s)
  | .number n => (.number, n.val.repr)

def Vocabulary.Test.print {v : Vocabulary} (t : v.Test) : List Content :=
  (.name, t.first) :: t.second.toList.map (.name, ·)

def Term.key {v : Vocabulary} (e : Term v) (printed : List Content) : List Content :=
  if e.isKey then printed else enclosed printed

namespace Layout

variable {v : Vocabulary} (layout : Layout v)

def operand (e : Term v) (printed : List Content) : List Content :=
  if e.isCompound || layout.encloses e then enclosed printed else printed

def optional (printed : List (List Content)) : List Content :=
  if printed.isEmpty && !layout.callsAll then [] else enclosed (separated printed)

end Layout

namespace Term

variable {v : Vocabulary} (layout : Layout v)

mutual

def print : Term v → List Content
  | name n => [(.name, n.1)]
  | bool b => [(.name, if b then "true" else "false")]
  | null => [(.name, "null")]
  | int n => [(.number, n.val.repr)]
  | string s => [(.string, s)]
  | array items => mark "[" :: (separated (prints items) ++ [mark "]"])
  | hash entries => mark "\x7b" :: (separated (printEntries entries) ++ [mark "\x7d"])
  | item object member => layout.operand object object.print ++ [mark ".", member.print]
  | method object member arguments =>
    layout.operand object object.print ++
      mark "." :: member.print :: enclosed (separated (prints arguments))
  | subscript object key =>
    layout.operand object object.print ++ mark "[" :: (key.print ++ [mark "]"])
  | filter f operand arguments =>
    layout.operand operand operand.print ++
      mark "|" :: (.name, f.1) :: layout.optional (printArguments arguments)
  | call f arguments => (.name, f.1.1) :: enclosed (separated (printArguments arguments))
  | block argument => (.name, "block") :: enclosed argument.print
  | test _ op subject t arguments =>
    layout.operand subject subject.print ++
      (.operator, op.1.1) :: (t.print ++ layout.optional (printArguments arguments))
  | conditional condition value otherwise =>
    layout.operand condition condition.print ++ mark "?" :: (layout.operand value value.print ++
      mark ":" :: layout.operand otherwise otherwise.print)
  | unary op operand => (.operator, op.1.1) :: layout.operand operand operand.print
  | binary _ op left right =>
    layout.operand left left.print ++ (.operator, op.1.1) :: layout.operand right right.print

def prints : List (Term v) → List (List Content)
  | [] => []
  | e :: rest => e.print :: prints rest

def printEntries : List (Term v × Term v) → List (List Content)
  | [] => []
  | (key, value) :: rest => (key.key key.print ++ mark ":" :: value.print) :: printEntries rest

def printArguments : List (Option Variable × Term v) → List (List Content)
  | [] => []
  | (label, value) :: rest => labelled label value.print :: printArguments rest

end

attribute [simp] node nodes entryNodes argumentNodes print prints printEntries printArguments

variable {layout}

theorem prints_eq (items : List (Term v)) : prints layout items = items.map (print layout) := by
  induction items with
  | nil => rfl
  | cons e items ih => rw [prints, ih, map_cons]

theorem nodes_eq (items : List (Term v)) : nodes items = items.map node := by
  induction items with
  | nil => rfl
  | cons e items ih => rw [nodes, ih, map_cons]

theorem printEntries_eq (entries : List (Term v × Term v)) :
    printEntries layout entries = entries.map fun entry =>
      entry.1.key (entry.1.print layout) ++ mark ":" :: entry.2.print layout := by
  induction entries with
  | nil => rfl
  | cons entry entries ih => rw [printEntries, ih, map_cons]

theorem entryNodes_eq (entries : List (Term v × Term v)) :
    entryNodes entries = entries.flatMap fun entry => [entry.1.node, entry.2.node] := by
  induction entries with
  | nil => rfl
  | cons entry entries ih => rw [entryNodes, ih, flatMap_cons]; rfl

theorem printArguments_eq (arguments : List (Option Variable × Term v)) :
    printArguments layout arguments = arguments.map fun a =>
      labelled a.1 (a.2.print layout) := by
  induction arguments with
  | nil => rfl
  | cons a arguments ih => rw [printArguments, ih, map_cons]

theorem argumentNodes_eq (arguments : List (Option Variable × Term v)) :
    argumentNodes arguments = arguments.map fun a => a.2.node.labelled a.1 := by
  induction arguments with
  | nil => rfl
  | cons a arguments ih => rw [argumentNodes, ih, map_cons]

theorem argumentNodes_map (items : List (Term v)) :
    argumentNodes (items.map (none, ·)) = nodes items := by
  simp [argumentNodes_eq, nodes_eq, Node.labelled]

end Term
end Stencil
