import Stencil.Listing
import Stencil.Text.Distance

/-!
# What keeps a listing from being a program

A listing that was written for a template is nearly always a program.  There are three obstacles.

* The function of a block has the name of the block in its own, and some characters of template
  names cannot stand in the name of a function (`badCharacter?`).
* An expression stands where there should be a statement.  It is not indented, so the functions
  around it end, and whatever follows it is out of place (`stray?`).
* The expression for the parent mentions a block, but there are no blocks yet when the parent is
  looked for (`blocksInParent?`).

`obstacle?` finds the one that is met first when a listing is read.
-/

namespace Stencil.Listing

/-- A place in a listing, counted from one, and what is wrong there. -/
structure Obstacle where
  line : Nat
  column : Nat
  what : String
  deriving DecidableEq, Repr

abbrev NumberedLine := Nat × List Char

def numberedLines (text : String) : List NumberedLine :=
  (text.toList.splitOn '\n').zipIdx.map fun (line, i) => (i + 1, line)

def margin (line : List Char) : Nat := (line.takeWhile (· == ' ')).length

/-! ## Characters in names -/

def blockHeader : List Char := "def block_".toList

def blockName? (line : List Char) : Option (Nat × List Char) :=
  let indent := margin line
  let code := line.drop indent
  if blockHeader.isPrefixOf code then
    some (indent + blockHeader.length + 1, (code.drop blockHeader.length).takeWhile (· != '('))
  else none

/-- The first character that may not stand in a name, with its column; the first is in column
`column`. -/
def badFrom (column : Nat) : List Char → Option (Nat × Char)
  | [] => none
  | c :: cs => if Text.isIdentifierChar c then badFrom (column + 1) cs else some (column, c)

def badCharacter? (lines : List NumberedLine) : Option Obstacle :=
  lines.findSome? fun (n, line) => do
    let (column, name) ← blockName? line
    let (column, c) ← badFrom column name
    let shown := String.ofList (Text.quotedChar c)
    return ⟨n, column, s!"unexpected input character '{shown}'"⟩

/-! ## Expressions that are no statements -/

/-- The length of the expression at the start of a line.  It ends at a blank that is not between
brackets, or at a name right after a closing bracket. -/
def expressionLength (depth : Nat) (inText closed : Bool) : List Char → Nat
  | [] => 0
  | c :: cs =>
    if inText then
      if c = '\\' then
        match cs with
        | _ :: rest => expressionLength depth true false rest + 2
        | [] => 1
      else expressionLength depth (c ≠ '"') (c = '"') cs + 1
    else if c = '"' then expressionLength depth true false cs + 1
    else if c = '(' || c = '[' || c = '{' then expressionLength (depth + 1) false false cs + 1
    else if c = ')' || c = ']' || c = '}' then expressionLength (depth - 1) false true cs + 1
    else if depth = 0 && (c = ' ' || (closed && Text.isIdentifierChar c)) then 0
    else expressionLength depth false false cs + 1

def keywords : List String := ["return", "if", "elif", "else", "for", "def", "pass"]

def afterExpression (n column : Nat) (code : List Char) : Obstacle :=
  let word := String.ofList (code.takeWhile Text.isIdentifierChar)
  if word = "if" then ⟨n, column, "conditional expression without else clause"⟩
  else
    let shown := if keywords.contains word then word else "identifier"
    ⟨n, column + word.length, s!"got {shown}, want newline"⟩

/-- What is wrong with a line that starts with an expression that is no statement. -/
def strayLine (n : Nat) (line : List Char) (after : List NumberedLine) : Option Obstacle :=
  let size := expressionLength 0 false false line
  let rest := line.drop size
  let gap := margin rest
  match rest.drop gap with
  | [] | '#' :: _ =>
    (after.find? fun (_, l) => !(l.drop (margin l)).isEmpty && (l.drop (margin l)).head? ≠ some '#').map
      fun (m, l) => ⟨m, margin l + 1, "got indent, want primary expression"⟩
  | code => some (afterExpression n (size + gap + 1) code)

/-- The first expression that stands where there should be a statement.  `opens` tells whether the
line before, not counting empty lines and remarks, needs indented lines after it. -/
def strayFrom (opens : Bool) : List NumberedLine → Option Obstacle
  | [] => none
  | (n, line) :: after =>
    let code := line.drop (margin line)
    match code with
    | [] | '#' :: _ => strayFrom opens after
    | _ =>
      if margin line = 0 then
        if opens then some ⟨n, 1, "got outdent, want indent"⟩ else strayLine n line after
      else strayFrom (code.getLast? == some ':') after

def headLines : Nat := 4

/-- The first expression that stands where there should be a statement. -/
def stray? (lines : List NumberedLine) : Option Obstacle :=
  strayFrom true (lines.drop headLines)

/-! ## Blocks for a parent -/

def parentHeader : List Char := "    def get_parent(context):".toList

/-- The column of a name in a line, not counting what is in texts.  `column` is the first column
and `before` the character before it. -/
def nameColumn? (name : List Char) (column : Nat) (before : Char) (inText : Bool) :
    List Char → Option Nat
  | [] => none
  | c :: cs =>
    if inText then
      if c = '\\' then
        match cs with
        | _ :: rest => nameColumn? name (column + 2) ' ' true rest
        | [] => none
      else nameColumn? name (column + 1) c (c ≠ '"') cs
    else if c = '"' then nameColumn? name (column + 1) c true cs
    else if name.isPrefixOf (c :: cs) && !Text.isIdentifierChar before && before ≠ '.' &&
        !((c :: cs).drop name.length).head?.any Text.isIdentifierChar then some column
    else nameColumn? name (column + 1) c false cs

def namesInParent (unit : String) (lines : List NumberedLine) : List String :=
  let blocks := lines.filterMap fun (_, line) =>
    (blockName? line).map fun (_, name) => "block_" ++ String.ofList name
  (["context", "this", "do_display", "get_parent", unit] ++ blocks).mergeSort

def blocksInParent? (unit : String) (lines : List NumberedLine) : Option Obstacle := do
  let (n, line) ← ((lines.dropWhile (·.2 ≠ parentHeader)).drop 1).head?
  let column ← nameColumn? "blocks".toList 1 ' ' false line
  let hint := match Text.nearest? "blocks" (namesInParent unit lines) with
    | some name => s!" (did you mean {name}?)"
    | none => ""
  return ⟨n, column, s!"undefined: blocks{hint}"⟩

/-! ## The first obstacle -/

def earlier : Option Obstacle → Option Obstacle → Option Obstacle
  | some a, some b => if b.line < a.line || (b.line = a.line && b.column < a.column) then b else a
  | some a, none => some a
  | none, b => b

/-- The first thing that keeps the listing of a unit from being a program. -/
def obstacle? (unit text : String) : Option Obstacle :=
  let lines := numberedLines text
  (earlier (stray? lines) (badCharacter? lines)).or (blocksInParent? unit lines)

end Stencil.Listing
