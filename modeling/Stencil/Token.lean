/-!
# Tokens

A template is read as a list of tokens: text outside delimiters, the delimiters themselves, and the
names, numbers, strings, operators and punctuation marks between them.  Every token carries the line
of the source on which it starts.

`Token.Kind.describe` is the wording used for a kind in messages.
-/

namespace Stencil

/-- The lexical class of a token.  `other` is a class the grammar gives no meaning to. -/
inductive Token.Kind
  | endOfTemplate
  | text
  | blockStart
  | blockEnd
  | printStart
  | printEnd
  | name
  | number
  | string
  | operator
  | punctuation
  | interpolationStart
  | interpolationEnd
  | other (number : Int)
  deriving DecidableEq, Repr, Inhabited

structure Token where
  kind : Token.Kind
  value : String
  line : Int
  deriving DecidableEq, Repr, Inhabited

namespace Token

/-! ## Kinds -/

def Kind.all : List Kind :=
  [.endOfTemplate, .text, .blockStart, .blockEnd, .printStart, .printEnd, .name, .number, .string,
   .operator, .punctuation, .interpolationStart, .interpolationEnd]

def Kind.ofNumber (n : Int) : Kind :=
  if 0 ≤ n then (Kind.all[n.toNat]?).getD (.other n) else .other n

def Kind.describe : Kind → String
  | .endOfTemplate => "end of template"
  | .text => "text"
  | .blockStart => "begin of statement block"
  | .blockEnd => "end of statement block"
  | .printStart => "begin of print statement"
  | .printEnd => "end of print statement"
  | .name => "name"
  | .number => "number"
  | .string => "string"
  | .operator => "operator"
  | .punctuation => "punctuation"
  | .interpolationStart => "begin of string interpolation"
  | .interpolationEnd => "end of string interpolation"
  | .other n => s!"Kind({n})"

def Kind.ofDescription? (s : String) : Option Kind :=
  Kind.all.find? (·.describe == s)

/-! ## Tests on a token -/

def test (t : Token) (kind : Kind) (values : List String) : Bool :=
  t.kind == kind && (values.isEmpty || values.contains t.value)

def is (t : Token) (kind : Kind) : Bool := t.kind == kind

def isMark (t : Token) (mark : String) : Bool := t.test .punctuation [mark]

def describe (t : Token) : String := s!"{t.kind.describe}({t.value})"

theorem test_iff {t : Token} {k : Kind} {v : List String} :
    t.test k v = true ↔ t.kind = k ∧ (v = [] ∨ t.value ∈ v) := by
  simp [test]

end Token
end Stencil
