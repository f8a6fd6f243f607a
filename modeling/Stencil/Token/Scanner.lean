import Stencil.Failure.Malformed
import Stencil.Text.Blank

/-!
# From source to tokens

The scanner reads a source from left to right.  Outside delimiters everything is text; inside it
reads operators, names, numbers, strings and punctuation.  Four modes nest inside each other: a
block `{% … %}`, a print `{{ … }}`, a double quoted string with interpolations, and an interpolation
`#{ … }` in such a string.  With no mode open the scanner is in plain text.

A source is a `String`, so it is taken to be valid UTF-8.
-/

namespace Stencil.Scanner

open Text (trimEnd)

/-! ## Characters -/

def isSpace (c : Char) : Bool :=
  c == ' ' || c == '\t' || c == '\n' || c == '\r' || c == '\x0b' || c == '\x00'

/-- White space inside the tag that opens or closes a verbatim section. -/
def isTagSpace (c : Char) : Bool :=
  c == ' ' || c == '\t' || c == '\n' || c == '\r'

/-- White space between the words of an operator. -/
def isWordSpace (c : Char) : Bool := isTagSpace c || c == '\x0b'

def isAlpha (c : Char) : Bool := ('a' ≤ c && c ≤ 'z') || ('A' ≤ c && c ≤ 'Z')

def isDigit (c : Char) : Bool := '0' ≤ c && c ≤ '9'

def isNameStart (c : Char) : Bool := isAlpha c || c == '_' || 0x7f ≤ c.toNat

def isNameChar (c : Char) : Bool := isNameStart c || isDigit c

def isName (s : String) : Bool :=
  match s.toList with
  | [] => false
  | c :: rest => isNameStart c && rest.all isNameChar

def isMark (c : Char) : Bool := "()[]\x7b\x7d?:.,|".toList.contains c

/-! ## The cursor -/

structure Cursor where
  before : Option Char
  rest : List Char
  /-- The line of the place, counted from one. -/
  line : Nat
  deriving Repr

def breaks (cs : List Char) : Nat := cs.count '\n'

def Cursor.advance (c : Cursor) (n : Nat) : Cursor where
  before := ((c.rest.take n).getLast?).or c.before
  rest := c.rest.drop n
  line := c.line + breaks (c.rest.take n)

def Cursor.skipSpace (c : Cursor) : Cursor :=
  c.advance (c.rest.takeWhile isSpace).length

def Cursor.skipBreak (c : Cursor) : Cursor :=
  match c.rest with
  | '\n' :: _ => c.advance 1
  | _ => c

/-! ## Operators -/

/-- The operators of a language, in the order in which they are tried. -/
abbrev Operators := List String

/-- The operators, longest first; the sign of assignment is always one of them. -/
def Operators.ofNames (names : List String) : Operators :=
  let names := if names.contains "=" then names else names ++ ["="]
  names.mergeSort fun a b => b.utf8ByteSize ≤ a.utf8ByteSize

/-- How many characters of a text the words take, `spaced` telling whether white space has to come
first. -/
def matchWords? (spaced : Bool) : List (List Char) → List Char → Option Nat
  | [], _ => some 0
  | word :: words, cs =>
    let gap := if spaced then (cs.takeWhile isWordSpace).length else 0
    if spaced && gap == 0 then none
    else if word.isPrefixOf (cs.drop gap) then
      (matchWords? true words (cs.drop (gap + word.length))).map (gap + word.length + ·)
    else none

def endsWord : List Char → Bool
  | [] => true
  | c :: _ => isWordSpace c || c == '(' || c == ')' || c == '[' || c == '{'

/-- The length of an operator at a place, if it stands there.  A word operator is no operator right
after a point or a bar, and has to be followed by white space, a bracket or the end. -/
def operatorLength? (op : String) (c : Cursor) : Option Nat :=
  let letters := op.toList
  let starts := letters.head?.any isAlpha
  if starts && (c.before == some '.' || c.before == some '|') then none
  else match matchWords? false (Text.words op) c.rest with
    | none => none
    | some n => if letters.getLast?.any isAlpha && !endsWord (c.rest.drop n) then none else some n

def Operators.match? (ops : Operators) (c : Cursor) : Option (String × Nat) :=
  ops.findSome? fun op => (operatorLength? op c).map (op, ·)

/-! ## Quoted strings -/

def escaped : Char → Char
  | 'n' => '\n'
  | 't' => '\t'
  | 'r' => '\r'
  | 'v' => '\x0b'
  | 'f' => '\x0c'
  | '0' => '\x00'
  | c => c

/-- A string body with its escapes resolved; a backslash at the end stands for itself. -/
def unescape : List Char → List Char
  | '\\' :: c :: rest => escaped c :: unescape rest
  | c :: rest => c :: unescape rest
  | [] => []

/-- The body of a string up to its closing quotation mark.  With `interpolated` an interpolation
inside the string is refused. -/
def stringBody? (quote : Char) (interpolated : Bool) : List Char → Option (List Char)
  | [] => none
  | [c] => if c ≠ '\\' ∧ c = quote then some [] else none
  | c :: d :: rest =>
    if c = '\\' then (stringBody? quote interpolated rest).map fun body => c :: d :: body
    else if c = quote then some []
    else if interpolated && c == '#' && d == '{' then none
    else (stringBody? quote interpolated (d :: rest)).map (c :: ·)

def stringPart : List Char → List Char
  | [] => []
  | [c] => if c = '"' then [] else [c]
  | c :: d :: rest =>
    if c = '\\' then c :: d :: stringPart rest
    else if c = '"' then []
    else if c = '#' ∧ d = '{' then []
    else c :: stringPart (d :: rest)

def hasInterpolation : List Char → Bool
  | '#' :: '{' :: _ => true
  | _ :: rest => hasInterpolation rest
  | [] => false

/-! ## Verbatim sections -/

/-- The length of `{%-? name -?%}` and of the white space that belongs to it, at the start of a
text. -/
def tagLength? (name : List Char) (cs : List Char) : Option Nat :=
  match cs with
  | '{' :: '%' :: rest =>
    let dash := if rest.head? == some '-' then 1 else 0
    let lead := ((rest.drop dash).takeWhile isTagSpace).length
    let body := rest.drop (dash + lead)
    if name.isPrefixOf body then
      let gap := ((body.drop name.length).takeWhile isTagSpace).length
      let size := 2 + dash + lead + name.length + gap
      match body.drop (name.length + gap) with
      | '-' :: '%' :: '}' :: after => some (size + 3 + (after.takeWhile isSpace).length)
      | '%' :: '}' :: '\n' :: _ => some (size + 3)
      | '%' :: '}' :: _ => some (size + 2)
      | _ => none
    else none
  | _ => none

def tag? (names : List String) (cs : List Char) : Option (String × Nat) :=
  names.findSome? fun name => (tagLength? name.toList cs).map (name, ·)

def sectionBody? (name : List Char) : List Char → Option (List Char × List Char)
  | [] => none
  | c :: rest =>
    if (tagLength? name (c :: rest)).isSome then some ([], c :: rest)
    else (sectionBody? name rest).map fun (body, tail) => (c :: body, tail)

/-! ## States -/

inductive Mode
  | block
  | print
  | string
  | interpolation
  deriving DecidableEq, Repr

structure Bracket where
  opening : String
  line : Nat
  deriving DecidableEq, Repr

structure State where
  cursor : Cursor
  /-- The modes that are open, innermost first; none in plain text. -/
  modes : List Mode
  brackets : List Bracket
  /-- The line of the delimiter that opened the current block or print. -/
  openLine : Nat
  tokens : Array Token
  deriving Repr

/-- What a step answers: a state, or a reason and a line. -/
abbrev Answer (α : Type) := Except (Malformed × Nat) α

namespace State

def emit (s : State) (kind : Token.Kind) (value : List Char) (line : Nat) : State :=
  { s with tokens := s.tokens.push ⟨kind, String.ofList value, line⟩ }

def advance (s : State) (n : Nat) : State := { s with cursor := s.cursor.advance n }

def skipSpace (s : State) : State := { s with cursor := s.cursor.skipSpace }

def enter (s : State) (m : Mode) : State := { s with modes := m :: s.modes }

def leave (s : State) : State := { s with modes := s.modes.tail }

def openBracket (s : State) (opening : String) (line : Nat) : State :=
  { s with brackets := ⟨opening, line⟩ :: s.brackets }

def closeBracket (s : State) : State := { s with brackets := s.brackets.tail }

end State

/-! ## Plain text -/

def startsDelimiter : List Char → Bool
  | '{' :: c :: _ => c == '{' || c == '%' || c == '#'
  | _ => false

def plainText : List Char → List Char
  | [] => []
  | c :: rest => if startsDelimiter (c :: rest) then [] else c :: plainText rest

/-- How many characters of a text come before the end of a comment, which is included. -/
def commentLength? : List Char → Option Nat
  | '#' :: '}' :: _ => some 2
  | _ :: rest => (commentLength? rest).map (· + 1)
  | [] => none

def readComment (s : State) : Answer State :=
  match commentLength? s.cursor.rest with
  | none => .error (.unclosedComment, s.cursor.line)
  | some n =>
    let dashed := 3 ≤ n && s.cursor.rest[n - 3]? == some '-'
    let after := s.cursor.advance n
    .ok { s with cursor := if dashed then after.skipSpace else after.skipBreak }

def readVerbatim (s : State) (tag : String) (n : Nat) : Answer State :=
  let inner := s.advance n
  match sectionBody? ("end" ++ tag).toList inner.cursor.rest with
  | none => .error (.unclosedVerbatim tag, s.cursor.line)
  | some (body, tail) =>
    let size := (tagLength? ("end" ++ tag).toList tail).getD 0
    let text := if (tail.drop 2).head? == some '-' then trimEnd isSpace body else body
    let read := if text.isEmpty then inner else inner.emit .text text inner.cursor.line
    .ok (read.advance (body.length + size))

def readOpening (s : State) (mode : Mode) (kind : Token.Kind) (dashed : Bool) : State :=
  let line := s.cursor.line
  let s := s.advance (if dashed then 3 else 2)
  ({ s with openLine := line }.emit kind [] line).enter mode

def readPlain (s : State) : Answer State :=
  let rest := s.cursor.rest
  let text := plainText rest
  if text.length == rest.length then
    .ok ((s.emit .text rest s.cursor.line).advance rest.length)
  else
    let dashed := (rest.drop (text.length + 2)).head? == some '-'
    let shown := if dashed then trimEnd isSpace text else text
    let s := (if shown.isEmpty then s else s.emit .text shown s.cursor.line).advance text.length
    match s.cursor.rest with
    | _ :: '#' :: _ => readComment s
    | _ :: '%' :: _ =>
      match tag? ["verbatim", "raw"] s.cursor.rest with
      | some (tag, n) => readVerbatim s tag n
      | none => .ok (readOpening s .block .blockStart dashed)
    | _ => .ok (readOpening s .print .printStart dashed)

/-! ## Expressions -/

def closing? : String → Option Char
  | "(" => some ')'
  | "[" => some ']'
  | "\x7b" => some '}'
  | _ => none

def numberLength (cs : List Char) : Nat :=
  let whole := (cs.takeWhile isDigit).length
  match cs.drop whole with
  | '.' :: d :: rest =>
    if isDigit d then whole + 1 + ((d :: rest).takeWhile isDigit).length else whole
  | _ => whole

def readMark (s : State) (c : Char) : Answer State :=
  let line := s.cursor.line
  let emitted (s : State) : State := (s.emit .punctuation [c] line).advance 1
  if c == '(' || c == '[' || c == '{' then
    .ok (emitted (s.openBracket (String.singleton c) line))
  else if c == ')' || c == ']' || c == '}' then
    match s.brackets with
    | [] => .error (.unexpectedBracket (String.singleton c), line)
    | top :: _ =>
      if closing? top.opening == some c then .ok (emitted s.closeBracket)
      else .error (.unclosed top.opening, top.line)
  else .ok (emitted s)

def readDoubleQuoted (s : State) (rest : List Char) : Answer State :=
  let line := s.cursor.line
  match stringBody? '"' true rest with
  | some body => .ok ((s.emit .string (unescape body) line).advance (body.length + 2))
  | none =>
    if hasInterpolation rest then .ok (((s.openBracket "\"" line).advance 1).enter .string)
    else .error (.unclosed "\"", line)

def readExpression (ops : Operators) (s : State) : Answer State :=
  let s := s.skipSpace
  let line := s.cursor.line
  match s.cursor.rest with
  | [] => .ok s
  | c :: rest =>
    match (ops.match? s.cursor).filter (0 < ·.2) with
    | some (op, n) => .ok ((s.emit .operator op.toList line).advance n)
    | none =>
      if isNameStart c then
        let name := c :: rest.takeWhile isNameChar
        .ok ((s.emit .name name line).advance name.length)
      else if isDigit c then
        let number := (c :: rest).take (numberLength (c :: rest))
        .ok ((s.emit .number number line).advance number.length)
      else if isMark c then readMark s c
      else if c == '\'' then
        match stringBody? '\'' false rest with
        | some body => .ok ((s.emit .string (unescape body) line).advance (body.length + 2))
        | none => .error (.unclosed "'", line)
      else if c == '"' then readDoubleQuoted s rest
      else .error (.unexpectedCharacter (String.singleton c), line)

/-! ## The four modes -/

def readBlock (ops : Operators) (s : State) : Answer State :=
  let s := s.skipSpace
  let line := s.cursor.line
  if s.brackets.isEmpty then
    match s.cursor.rest with
    | '-' :: '%' :: '}' :: _ => .ok (((s.emit .blockEnd [] line).advance 3).skipSpace.leave)
    | '%' :: '}' :: _ =>
      let s := (s.emit .blockEnd [] line).advance 2
      .ok ({ s with cursor := s.cursor.skipBreak }.leave)
    | _ => readExpression ops s
  else readExpression ops s

def readPrint (ops : Operators) (s : State) : Answer State :=
  let s := s.skipSpace
  let line := s.cursor.line
  if s.brackets.isEmpty then
    match s.cursor.rest with
    | '-' :: '}' :: '}' :: _ => .ok (((s.emit .printEnd [] line).advance 3).skipSpace.leave)
    | '}' :: '}' :: _ => .ok (((s.emit .printEnd [] line).advance 2).leave)
    | _ => readExpression ops s
  else readExpression ops s

def readString (s : State) : Answer State :=
  let line := s.cursor.line
  match s.cursor.rest with
  | '#' :: '{' :: _ =>
    .ok ((((s.openBracket "#\x7b" line).emit .interpolationStart [] line).advance 2).enter
      .interpolation)
  | '"' :: _ => .ok ((s.closeBracket.advance 1).leave)
  | rest =>
    let part := stringPart rest
    .ok ((s.emit .string (unescape part) line).advance part.length)

def readInterpolation (ops : Operators) (s : State) : Answer State :=
  let s := s.skipSpace
  let line := s.cursor.line
  if s.brackets.head?.any (·.opening == "#\x7b") && s.cursor.rest.head? == some '}' then
    .ok (((s.closeBracket.emit .interpolationEnd [] line).advance 1).leave)
  else readExpression ops s

/-! ## The whole source -/

def step (ops : Operators) (s : State) : Answer State :=
  match s.modes with
  | [] => readPlain s
  | .block :: _ => readBlock ops s
  | .print :: _ => readPrint ops s
  | .string :: _ => readString s
  | .interpolation :: _ => readInterpolation ops s

/-- What is wrong with a source that ends here: nothing in plain text, else what is still open. -/
def finish (s : State) : Answer (Array Token) :=
  match s.modes with
  | [] => .ok (s.tokens.push ⟨.endOfTemplate, "", s.cursor.line⟩)
  | .block :: _ => .error (.unclosedBlock, s.openLine)
  | .print :: _ => .error (.unclosedPrint, s.openLine)
  | _ =>
    match s.brackets with
    | b :: _ => .error (.unclosed b.opening, b.line)
    | [] => .error (.unexpectedEnd, s.cursor.line)

def scan (ops : Operators) : Nat → State → Answer (Array Token)
  | 0, s => finish s
  | fuel + 1, s =>
    if s.cursor.rest.isEmpty then finish s
    else match step ops s with
      | .ok s' => scan ops fuel s'
      | .error e => .error e

/-- The source with its two-character line breaks made plain ones. -/
def normalize : List Char → List Char
  | '\r' :: '\n' :: rest => '\n' :: normalize rest
  | c :: rest => c :: normalize rest
  | [] => []

def start (source : List Char) : State :=
  { cursor := ⟨none, source, 1⟩, modes := [], brackets := [], openLine := 0, tokens := #[] }

def tokenize (ops : Operators) (source : String) : Answer (Array Token) :=
  let cs := normalize source.toList
  scan ops cs.length (start cs)

end Stencil.Scanner
