import Stencil.Failure
import Stencil.Token.Stream
import Stencil.Vocabulary

/-!
# Parsing

A parser walks along a token stream and keeps what a template collects on the way: the blocks it
defines, the blocks it is inside of, and the expression after `extends`.

`Parse` is the type of such steps.  A step that fails stops the parse; `fail` names the template and
falls back on the line of the current token.

`Hooks` is what a tag gets to read the rest of itself with, and a `Grammar` is a vocabulary together
with tags.
-/

namespace Stencil

/-! ## The state of a parse -/

/-- A block as far as it has been read. -/
structure BlockDraft where
  name : String
  line : Int
  body : Node

structure ParseState where
  stream : TokenStream
  /-- The blocks, in the order in which they were opened. -/
  blocks : List BlockDraft
  /-- The names of the blocks that are open, innermost first. -/
  openBlocks : List String
  parent : Option Node

abbrev Parse (α : Type) := StateT ParseState (Except Failure) α

namespace Parse

/-- Fails at a line, or at the current token when the line is not known. -/
def fail {α : Type} (reason : Malformed) (line : Int) : Parse α := fun s =>
  .error (.malformed reason s.stream.template
    (if line ≤ 0 then s.stream.current.line else line))

/-- What comes of a reader that would read on and on. -/
def stuck {α : Type} : Parse α := fun _ => .error .stuck

def current : Parse Token := fun s => .ok (s.stream.current, s)

def next : Parse Token := fun s => .ok (s.stream.current, { s with stream := s.stream.advance })

def test (kind : Token.Kind) (values : List String) : Parse Bool := fun s =>
  .ok (s.stream.test kind values, s)

def testMark (mark : String) : Parse Bool := test .punctuation [mark]

def atEnd : Parse Bool := fun s => .ok (s.stream.atEnd, s)

def nextIf (kind : Token.Kind) (values : List String) : Parse (Option Token) := fun s =>
  match s.stream.nextIf? kind values with
  | some (t, stream) => .ok (some t, { s with stream })
  | none => .ok (none, s)

def skipMark (mark : String) : Parse Bool := do
  return (← nextIf .punctuation [mark]).isSome

/-- Skips the current token, which has to match; `context` explains what is being read. -/
def expectIn (context : String) (kind : Token.Kind) (values : List String) : Parse Token := fun s =>
  match s.stream.expect context kind values with
  | .ok (t, stream) => .ok (t, { s with stream })
  | .error (reason, line) => fail reason line s

def expect (kind : Token.Kind) (values : List String) : Parse Token := expectIn "" kind values

def expectMark (context mark : String) : Parse Token := expectIn context .punctuation [mark]

def remaining : Parse Nat := fun s => .ok (s.stream.remaining, s)

end Parse

/-! ## Tags -/

structure Stop where
  names : List String
  consume : Bool

structure Hooks where
  vocabulary : Vocabulary
  /-- Reads an expression whose operators bind at least as tightly as given. -/
  expression : Int → Parse Node
  body : Stop → Parse Node

/-- A tag: it is called after its name has been read and reads up to the end of its last
delimiter.  It may build no node. -/
structure Tag where
  name : String
  parse : Hooks → Token → Parse (Option Node)

/-- A language: its vocabulary and its tags. -/
structure Grammar where
  vocabulary : Vocabulary
  tags : List Tag

def Grammar.tag? (g : Grammar) (name : String) : Option Tag := g.tags.find? (·.name == name)

end Stencil
