/-!
# Tokens of a YAML document

A document is cut into tokens before it is put together.  Nesting by indentation is made explicit:
there is a token where a block begins and one where it ends, and a token before every key.
-/

namespace Stencil.Yaml

/-- A place in a document; lines and columns are counted from zero. -/
structure Mark where
  line : Nat
  column : Nat
  index : Nat
  deriving DecidableEq, Repr

/-- What makes a text no document, with the number of a line unless it is zero. -/
structure Complaint where
  line : Nat
  text : String
  deriving DecidableEq, Repr

namespace Complaint

/-- A complaint about characters.  The line is that of the thing being read, or else of the
place where reading stopped; the first line is not mentioned. -/
def ofCharacters (thing place : Mark) (text : String) : Complaint :=
  if thing.line ≠ 0 then ⟨thing.line + 1, text⟩
  else if place.line ≠ 0 then ⟨place.line + 1, text⟩
  else ⟨0, text⟩

/-- A complaint about tokens.  Lines are counted from zero here. -/
def ofTokens (thing place : Mark) (text : String) : Complaint :=
  if thing.line ≠ 0 then ⟨thing.line, text⟩ else ⟨place.line, text⟩

def message (c : Complaint) : String :=
  if c.line = 0 then s!"yaml: {c.text}" else s!"yaml: line {c.line}: {c.text}"

end Complaint

inductive Token.Kind
  | streamEnd
  /-- Says for which version of the language the document is. -/
  | version (major minor : Nat)
  | handle (name lead : String)
  | documentStart
  | documentEnd
  | blockSequence
  | blockMapping
  | blockEnd
  | flowSequence
  | flowSequenceEnd
  | flowMapping
  | flowMappingEnd
  | blockItem
  | flowItem
  | key
  | value
  | reference (name : String)
  | anchor (name : String)
  | tag (handle suffix : String)
  /-- A scalar; it is quoted if it is text unless a tag says otherwise. -/
  | scalar (text : String) (quoted : Bool)
  deriving DecidableEq, Repr

structure Token where
  kind : Token.Kind
  mark : Mark
  deriving DecidableEq, Repr

/-- What ends the reading of tokens before the end of a document. -/
structure Trouble where
  complaint : Complaint
  /-- The tokens, by their numbers, of which one cannot know whether they start keys without
  reading on, and what one finds then. -/
  undecided : List (Nat × Complaint)
  deriving DecidableEq, Repr

structure Tokens where
  read : Array Token
  /-- Why there are no more, unless the last one is the end of the document. -/
  trouble : Option Trouble
  deriving DecidableEq, Repr

end Stencil.Yaml
