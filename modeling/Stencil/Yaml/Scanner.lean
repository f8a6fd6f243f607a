import Stencil.Yaml.Property

/-!
# Cutting a YAML document into tokens

Outside of brackets the column of a token decides to which block it belongs.  The scanner keeps the
columns of the blocks that are open; a token further to the left ends them.

A key is only known to be one when its colon comes.  So the scanner remembers, for every level of
brackets, the last token that could start a key, and puts the token for the key before it once the
colon is there.  A key has to end on the line on which it starts.

When the document cannot be read any further, the tokens before that place are kept: whoever uses
them may never come so far.
-/

namespace Stencil.Yaml

structure Candidate where
  mark : Mark
  position : Nat
  /-- Whether nothing but a key can stand there. -/
  required : Bool

structure Scan where
  cursor : Cursor
  tokens : Array Token
  /-- The columns of the open blocks, the innermost first. -/
  indents : List Nat
  keyAllowed : Bool
  /-- The possible keys outside of brackets and within each level of them, the innermost first. -/
  candidates : List (Option Candidate)

abbrev Scanning := Except Complaint Scan

namespace Scan

def inFlow (s : Scan) : Bool := 1 < s.candidates.length

/-- The column of the innermost block, below zero when there is none. -/
def indent (s : Scan) : Int :=
  match s.indents with
  | [] => -1
  | n :: _ => n

def mark (s : Scan) : Mark := s.cursor.mark

def emit (s : Scan) (kind : Token.Kind) (mark : Mark) : Scan :=
  { s with tokens := s.tokens.push ⟨kind, mark⟩ }

def insert (s : Scan) (position : Nat) (kind : Token.Kind) (mark : Mark) : Scan :=
  { s with
    tokens := s.tokens.extract 0 position ++ #[⟨kind, mark⟩] ++
      s.tokens.extract position s.tokens.size }

/-! ## Blocks -/

def unroll (s : Scan) (column : Int) (place : Mark) : Scan :=
  if s.inFlow then s
  else
    let open_ := s.indents.dropWhile fun (n : Nat) => column < (n : Int)
    let ended := s.indents.length - open_.length
    { s with
      indents := open_
      tokens := s.tokens ++ (Array.replicate ended ⟨.blockEnd, place⟩ : Array Token) }

def roll (s : Scan) (column position : Nat) (kind : Token.Kind) (mark : Mark) : Scan :=
  if s.inFlow || (column : Int) ≤ s.indent then s
  else ({ s with indents := column :: s.indents }).insert position kind mark

/-! ## Keys -/

def candidate? (s : Scan) : Option Candidate := s.candidates.headD none

def setCandidate (s : Scan) (c : Option Candidate) : Scan :=
  { s with candidates := c :: s.candidates.drop 1 }

def missingColon (s : Scan) (c : Candidate) : Complaint :=
  .ofCharacters c.mark s.mark "could not find expected ':'"

def dropCandidate (s : Scan) : Scanning :=
  match s.candidate? with
  | some c => if c.required then .error (s.missingColon c) else .ok (s.setCandidate none)
  | none => .ok s

def saveCandidate (s : Scan) : Scanning := do
  if !s.keyAllowed then return s
  let required := !s.inFlow && s.indent = s.mark.column
  return (← s.dropCandidate).setCandidate (some ⟨s.mark, s.tokens.size, required⟩)

def longestKey : Nat := 1024

def isNear (s : Scan) (c : Candidate) : Bool :=
  s.mark.line ≤ c.mark.line && s.mark.index ≤ c.mark.index + longestKey

def nearCandidate? (s : Scan) : Except Complaint (Option Candidate) :=
  match s.candidate? with
  | none => .ok none
  | some c =>
    if s.isNear c then .ok (some c)
    else if c.required then .error (s.missingColon c) else .ok none

/-- The numbers of the tokens that are possible keys, and what is wrong for one who wants to know
if they are: what ends the document, unless a colon should have come before. -/
def undecided (s : Scan) (why : Complaint) : List (Nat × Complaint) :=
  s.candidates.filterMap fun c => do
    let c ← c
    if s.isNear c then some (c.position, why)
    else if c.required then some (c.position, s.missingColon c)
    else none

/-! ## The kinds of tokens -/

def refuse (s : Scan) (text : String) : Scanning :=
  .error (.ofCharacters s.mark s.mark text)

def skip (s : Scan) (n : Nat) : Scan := { s with cursor := s.cursor.skip n }

def allow (s : Scan) (b : Bool) : Scan := { s with keyAllowed := b }

def streamEnd (s : Scan) : Scanning := do
  let m := s.mark
  let m := if m.column = 0 then m else ⟨m.line + 1, 0, m.index⟩
  let s := { s with cursor := { s.cursor with mark := m } }
  let s ← (s.unroll (-1) m).dropCandidate
  return s.emit .streamEnd m

def documentMark (s : Scan) (kind : Token.Kind) : Scanning := do
  let s ← (s.unroll (-1) s.mark).dropCandidate
  return ((s.allow false).emit kind s.mark).skip 3

def directive (s : Scan) : Scanning := do
  let s ← (s.unroll (-1) s.mark).dropCandidate
  let (kind, cursor) ← s.cursor.directive
  return { (s.allow false).emit kind s.mark with cursor }

def openBracket (s : Scan) (kind : Token.Kind) : Scanning := do
  let s ← s.saveCandidate
  return (({ s with candidates := none :: s.candidates, keyAllowed := true }).emit kind s.mark).skip 1

def closeBracket (s : Scan) (kind : Token.Kind) : Scanning := do
  let s ← s.dropCandidate
  let outer := if s.inFlow then s.candidates.drop 1 else s.candidates
  return (({ s with candidates := outer, keyAllowed := false }).emit kind s.mark).skip 1

def comma (s : Scan) : Scanning := do
  let s ← s.dropCandidate
  return ((s.allow true).emit .flowItem s.mark).skip 1

def dash (s : Scan) : Scanning := do
  if !s.inFlow && !s.keyAllowed then
    s.refuse "block sequence entries are not allowed in this context"
  else
    let s ← (s.roll s.mark.column s.tokens.size .blockSequence s.mark).dropCandidate
    return ((s.allow true).emit .blockItem s.mark).skip 1

def question (s : Scan) : Scanning := do
  if !s.inFlow && !s.keyAllowed then s.refuse "mapping keys are not allowed in this context"
  else
    let s ← (s.roll s.mark.column s.tokens.size .blockMapping s.mark).dropCandidate
    return ((s.allow !s.inFlow).emit .key s.mark).skip 1

def colon (s : Scan) : Scanning := do
  match ← s.nearCandidate? with
  | some c =>
    let s := (s.insert c.position .key c.mark).roll c.mark.column c.position .blockMapping c.mark
    return (((s.setCandidate none).allow false).emit .value s.mark).skip 1
  | none =>
    let s := s.setCandidate none
    if !s.inFlow && !s.keyAllowed then s.refuse "mapping values are not allowed in this context"
    else
      let s := s.roll s.mark.column s.tokens.size .blockMapping s.mark
      return ((s.allow !s.inFlow).emit .value s.mark).skip 1

def reference (s : Scan) : Scanning := do
  let s ← s.saveCandidate
  let (name, cursor) ← s.cursor.name
  return { (s.allow false).emit (.reference name) s.mark with cursor }

def anchor (s : Scan) : Scanning := do
  let s ← s.saveCandidate
  let (name, cursor) ← s.cursor.name
  return { (s.allow false).emit (.anchor name) s.mark with cursor }

def tag (s : Scan) : Scanning := do
  let s ← s.saveCandidate
  let (handle, suffix, cursor) ← s.cursor.tag
  return { (s.allow false).emit (.tag handle suffix) s.mark with cursor }

def plain (s : Scan) : Scanning := do
  let s ← s.saveCandidate
  let (text, broken, cursor) ← s.cursor.plain s.inFlow (s.indent + 1).toNat
  return { (s.allow broken).emit (.scalar (String.ofList text) false) s.mark with cursor }

def quoted (s : Scan) (mark : Char) : Scanning := do
  let s ← s.saveCandidate
  let (text, cursor) ← s.cursor.quoted mark
  return { (s.allow false).emit (.scalar (String.ofList text) true) s.mark with cursor }

def block (s : Scan) (literal : Bool) : Scanning := do
  let s ← s.dropCandidate
  let (text, cursor) ← s.cursor.block literal s.indent
  return { (s.allow true).emit (.scalar (String.ofList text) true) s.mark with cursor }

/-! ## All tokens -/

/-- Goes over blanks, comments and line breaks, and over marks of the byte order where lines
start. -/
def skipSpace : Nat → Scan → Scan
  | 0, s => s
  | fuel + 1, s =>
    match s.cursor.peek 0 with
    | none => s
    | some x =>
      if x = '\ufeff' && s.mark.column = 0 then skipSpace fuel (s.skip 1)
      else if x = ' ' || (x = '\t' && (s.inFlow || !s.keyAllowed)) then
        skipSpace fuel (s.skip 1)
      else if x = '#' then
        skipSpace fuel { s with cursor := (s.cursor.span fun y => !isBreak y).2 }
      else if isBreak x then
        skipSpace fuel { s with cursor := s.cursor.nextLine, keyAllowed := s.keyAllowed || !s.inFlow }
      else s

/-- The characters that cannot start a plain scalar. -/
def indicators : List Char :=
  ['-', '?', ':', ',', '[', ']', '{', '}', '#', '&', '*', '!', '|', '>', '\'', '"', '%',
    '@', '\x60']

def startsPlain (s : Scan) (x : Char) : Bool :=
  !(isBlank x || isBreak x || indicators.contains x) ||
    (x = '-' && !(s.cursor.peek 1).any isBlank) ||
    (!s.inFlow && (x = '?' || x = ':') && !s.cursor.endsAt 1)

def token (s : Scan) (x : Char) : Scanning :=
  let c := s.cursor
  if x = '%' && s.mark.column = 0 then s.directive
  else if c.startsWithMark '-' then s.documentMark .documentStart
  else if c.startsWithMark '.' then s.documentMark .documentEnd
  else if x = '[' then s.openBracket .flowSequence
  else if x = '{' then s.openBracket .flowMapping
  else if x = ']' then s.closeBracket .flowSequenceEnd
  else if x = '}' then s.closeBracket .flowMappingEnd
  else if x = ',' then s.comma
  else if x = '-' && c.endsAt 1 then s.dash
  else if x = '?' && (s.inFlow || c.endsAt 1) then s.question
  else if x = ':' && (s.inFlow || c.endsAt 1) then s.colon
  else if x = '*' then s.reference
  else if x = '&' then s.anchor
  else if x = '!' then s.tag
  else if (x = '|' || x = '>') && !s.inFlow then s.block (x = '|')
  else if x = '\'' || x = '"' then s.quoted x
  else if s.startsPlain x then s.plain
  else s.refuse "found character that cannot start any token"

def next (s : Scan) : Scanning :=
  let t := skipSpace s.cursor.rest.length s
  let t := t.unroll t.mark.column s.mark
  match t.cursor.peek 0 with
  | none => t.streamEnd
  | some x => t.token x

def all : Nat → Scan → Tokens
  | 0, s => ⟨s.tokens, none⟩
  | fuel + 1, s =>
    match s.next with
    | .error why => ⟨s.tokens, some ⟨why, s.undecided why⟩⟩
    | .ok t => if t.tokens.back?.any (·.kind = .streamEnd) then ⟨t.tokens, none⟩ else all fuel t

end Scan

def tokens (document : String) : Tokens :=
  let cs := document.toList
  let start : Mark := ⟨0, 0, 0⟩
  if cs.any isControl then ⟨#[], some ⟨⟨0, "control characters are not allowed"⟩, []⟩⟩
  else
    let cs := if cs.head? == some '\ufeff' then cs.drop 1 else cs
    Scan.all (cs.length + 1) ⟨⟨cs, start⟩, #[], [], true, [none]⟩

end Stencil.Yaml
