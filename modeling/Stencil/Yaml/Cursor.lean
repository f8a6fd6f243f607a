import Stencil.Yaml.Token

/-!
# Going through the characters of a YAML document

A cursor is what is left of a document, and the place where it starts.  Scalars are read here, each
kind by its own rule for line breaks: a single line break between two words is a space, and of
several ones the first is dropped.
-/

namespace Stencil.Yaml

/-! ## Characters -/

def isBlank (c : Char) : Bool := c = ' ' || c = '\t'

def isBreak (c : Char) : Bool :=
  c = '\n' || c = '\r' || c = '\u0085' || c = '\u2028' || c = '\u2029'

def isControl (c : Char) : Bool :=
  let n := c.toNat
  !(n = 9 || n = 10 || n = 13 || (32 ≤ n && n ≤ 126) || n = 0x85 || (0xa0 ≤ n && n ≤ 0xfffd) ||
    0x10000 ≤ n)

structure Cursor where
  rest : List Char
  mark : Mark

namespace Cursor

def peek (c : Cursor) (n : Nat) : Option Char := c.rest[n]?

/-- Whether there is a blank, a line break or the end after `n` characters. -/
def endsAt (c : Cursor) (n : Nat) : Bool := (c.peek n).all fun x => isBlank x || isBreak x

def atLineEnd (c : Cursor) : Bool := (c.peek 0).all isBreak

def next (c : Cursor) : Cursor :=
  ⟨c.rest.drop 1, ⟨c.mark.line, c.mark.column + 1, c.mark.index + 1⟩⟩

def skip (c : Cursor) (n : Nat) : Cursor :=
  ⟨c.rest.drop n, ⟨c.mark.line, c.mark.column + n, c.mark.index + n⟩⟩

def nextLine (c : Cursor) : Cursor :=
  let n := match c.rest with
    | '\r' :: '\n' :: _ => 2
    | _ => 1
  ⟨c.rest.drop n, ⟨c.mark.line + 1, 0, c.mark.index + n⟩⟩

def lineBreak (c : Cursor) : List Char :=
  match c.rest with
  | x :: _ => if x = '\u2028' || x = '\u2029' then [x] else ['\n']
  | [] => []

def startsWithMark (c : Cursor) (x : Char) : Bool :=
  c.mark.column = 0 && c.rest.take 3 == [x, x, x] && c.endsAt 3

def atDocumentMark (c : Cursor) : Bool := c.startsWithMark '-' || c.startsWithMark '.'

def span (c : Cursor) (p : Char → Bool) : List Char × Cursor :=
  let word := c.rest.takeWhile p
  (word, c.skip word.length)

end Cursor

/-! ## Gaps between words -/

/-- What stands between two words of a scalar. -/
structure Gap where
  blanks : List Char := []
  lead : List Char := []
  trail : List Char := []
  broken : Bool := false

def Gap.text (g : Gap) : List Char :=
  if !g.broken then g.blanks
  else if g.lead == ['\n'] then (if g.trail.isEmpty then [' '] else g.trail)
  else g.lead ++ g.trail

/-- Reads a gap.  A tab before column `indent` of a later line is out of place. -/
def Cursor.gap (indent : Nat) : Nat → Gap → Cursor → Except Cursor (Gap × Cursor)
  | 0, g, c => .ok (g, c)
  | fuel + 1, g, c =>
    match c.peek 0 with
    | none => .ok (g, c)
    | some x =>
      if isBlank x then
        if g.broken then
          if x = '\t' && c.mark.column < indent then .error c else gap indent fuel g c.next
        else gap indent fuel { g with blanks := g.blanks ++ [x] } c.next
      else if isBreak x then
        let g := if g.broken then { g with trail := g.trail ++ c.lineBreak }
          else { g with blanks := [], lead := c.lineBreak, broken := true }
        gap indent fuel g c.nextLine
      else .ok (g, c)

namespace Cursor

/-! ## Plain scalars -/

def stopsWord (c : Cursor) (flow : Bool) : Bool :=
  match c.peek 0 with
  | none => true
  | some x =>
    isBlank x || isBreak x || (x = ':' && c.endsAt 1) ||
      (flow && [',', '?', '[', ']', '{', '}'].contains x)

/-- The characters of a plain scalar up to a blank or an indicator. -/
def word (flow : Bool) : Nat → List Char → Cursor → List Char × Cursor
  | 0, back, c => (back.reverse, c)
  | fuel + 1, back, c =>
    if c.stopsWord flow then (back.reverse, c)
    else match c.peek 0 with
      | some x => word flow fuel (x :: back) c.next
      | none => (back.reverse, c)

/-- Reads the words of a plain scalar.  The answer says whether a line had ended after the last
one. -/
def plainWords (flow : Bool) (indent : Nat) (start : Mark) :
    Nat → List Char → Gap → Cursor → Except Complaint (List Char × Bool × Cursor)
  | 0, text, g, c => .ok (text, g.broken, c)
  | fuel + 1, text, g, c => do
    if c.atDocumentMark || c.peek 0 == some '#' then return (text, g.broken, c)
    let (w, after) := word flow c.rest.length [] c
    let text := if w.isEmpty then text else text ++ g.text ++ w
    let g := if w.isEmpty then g else {}
    if !after.endsAt 0 || after.rest.isEmpty then return (text, g.broken, after)
    match after.gap indent after.rest.length g with
    | .error bad =>
      throw (.ofCharacters start bad.mark "found a tab character that violates indentation")
    | .ok (g, c) =>
      if !flow && c.mark.column < indent then return (text, g.broken, c)
      plainWords flow indent start fuel text g c

def plain (c : Cursor) (flow : Bool) (indent : Nat) :
    Except Complaint (List Char × Bool × Cursor) :=
  plainWords flow indent c.mark (c.rest.length + 1) [] {} c

/-! ## Quoted scalars -/

def hexValue? (cs : List Char) : Option Nat :=
  cs.foldl (fun acc c => do
    let n ← acc
    if '0' ≤ c && c ≤ '9' then some (n * 16 + (c.toNat - 48))
    else if 'a' ≤ c && c ≤ 'f' then some (n * 16 + (c.toNat - 87))
    else if 'A' ≤ c && c ≤ 'F' then some (n * 16 + (c.toNat - 55))
    else none) (some 0)

/-- What a character means after a backslash, unless it is followed by digits. -/
def escaped? (c : Char) : Option Char :=
  [('0', '\x00'), ('a', '\x07'), ('b', '\x08'), ('t', '\t'), ('\t', '\t'), ('n', '\n'),
    ('v', '\x0b'), ('f', '\x0c'), ('r', '\r'), ('e', '\x1b'), (' ', ' '), ('"', '"'),
    ('\'', '\''), ('/', '/'), ('\\', '\\'), ('N', '\u0085'),
    ('_', '\u00a0'), ('L', '\u2028'), ('P', '\u2029')].lookup c

/-- How many digits follow a character after a backslash. -/
def digitsAfter (c : Char) : Nat :=
  if c = 'x' then 2 else if c = 'u' then 4 else if c = 'U' then 8 else 0

def escape (c : Cursor) (start : Mark) : Except Complaint (Char × Cursor) :=
  let x := (c.peek 0).getD '\x00'
  match escaped? x with
  | some y => .ok (y, c.next)
  | none =>
    let n := digitsAfter x
    if n = 0 then .error (.ofCharacters start c.mark "found unknown escape character")
    else
      let digits := (c.rest.drop 1).take n
      match hexValue? digits with
      | none => .error (.ofCharacters start c.mark "did not find expected hexdecimal number")
      | some value =>
        if digits.length < n then
          .error (.ofCharacters start c.mark "did not find expected hexdecimal number")
        else if (0xd800 ≤ value && value ≤ 0xdfff) || 0x10ffff < value then
          .error (.ofCharacters start c.mark "found invalid Unicode character escape code")
        else .ok (Char.ofNat value, c.skip (n + 1))

/-- Reads the characters of a quoted scalar up to a blank or its end.  The answer says whether a line
break was taken back by a backslash. -/
def quotedWord (mark : Char) (start : Mark) :
    Nat → List Char → Cursor → Except Complaint (List Char × Bool × Cursor)
  | 0, back, c => .ok (back.reverse, false, c)
  | fuel + 1, back, c =>
    match c.peek 0 with
    | none => .ok (back.reverse, false, c)
    | some x =>
      if isBlank x || isBreak x then .ok (back.reverse, false, c)
      else if mark = '\'' && x = mark && c.peek 1 == some mark then
        quotedWord mark start fuel (mark :: back) (c.skip 2)
      else if x = mark then .ok (back.reverse, false, c)
      else if mark = '"' && x = '\\' then
        if (c.peek 1).any isBreak then .ok (back.reverse, true, c.next.nextLine)
        else do
          let (y, c) ← escape c.next start
          quotedWord mark start fuel (y :: back) c
      else quotedWord mark start fuel (x :: back) c.next

def quotedWords (mark : Char) (start : Mark) :
    Nat → List Char → Cursor → Except Complaint (List Char × Cursor)
  | 0, text, c => .ok (text, c)
  | fuel + 1, text, c => do
    if c.atDocumentMark then
      throw (.ofCharacters start c.mark "found unexpected document indicator")
    if c.rest.isEmpty then throw (.ofCharacters start c.mark "found unexpected end of stream")
    let (w, joined, c) ← quotedWord mark start c.rest.length [] c
    if !joined && c.peek 0 == some mark then return (text ++ w, c.next)
    match c.gap 0 c.rest.length { broken := joined } with
    | .error c => return (text ++ w, c)
    | .ok (g, c) => quotedWords mark start fuel (text ++ w ++ g.text) c

def quoted (c : Cursor) (mark : Char) : Except Complaint (List Char × Cursor) :=
  quotedWords mark c.mark (c.rest.length + 1) [] c.next

/-! ## Block scalars -/

/-- Reads the empty lines of a block scalar.  As long as `indent` is zero the indentation is not
known, and the deepest column is returned. -/
def emptyLines (indent : Nat) (start : Mark) :
    Nat → Nat → List Char → Cursor → Except Complaint (Nat × List Char × Cursor)
  | 0, deepest, breaks, c => .ok (deepest, breaks, c)
  | fuel + 1, deepest, breaks, c => do
    let room := if indent = 0 then c.rest.length else indent - c.mark.column
    let n := ((c.rest.take room).takeWhile (· = ' ')).length
    let c := c.skip n
    let deepest := max deepest c.mark.column
    if (indent = 0 || c.mark.column < indent) && c.peek 0 == some '\t' then
      throw (.ofCharacters start c.mark
        "found a tab character where an indentation space is expected")
    if (c.peek 0).any isBreak then
      emptyLines indent start fuel deepest (breaks ++ c.lineBreak) c.nextLine
    else return (deepest, breaks, c)

/-- What was read of a block scalar: the text, the line break after it and the empty lines after
that. -/
structure BlockText where
  text : List Char := []
  lead : List Char := []
  trail : List Char := []
  blank : Bool := false

def blockLines (literal : Bool) (indent : Nat) (start : Mark) :
    Nat → BlockText → Cursor → Except Complaint (BlockText × Cursor)
  | 0, b, c => .ok (b, c)
  | fuel + 1, b, c => do
    if c.mark.column ≠ indent || c.rest.isEmpty then return (b, c)
    let blank := (c.peek 0).any isBlank
    let joint :=
      if !literal && !b.blank && !blank && b.lead == ['\n'] then
        (if b.trail.isEmpty then [' '] else [])
      else b.lead
    let (line, after) := c.span fun x => !isBreak x
    let lead := after.lineBreak
    let (_, trail, c) ← emptyLines indent start (after.rest.length + 1) 0 []
      (if after.rest.isEmpty then after else after.nextLine)
    let text := b.text ++ joint ++ b.trail ++ line
    blockLines literal indent start fuel { text, lead, trail, blank } c

/-- The header of a block scalar: what to do with the line breaks at its end, and how far it is
indented. -/
def blockHeader (c : Cursor) (start : Mark) : Except Complaint (Option Char × Nat × Cursor) :=
  let sign (c : Cursor) : Option Char × Cursor :=
    match c.peek 0 with
    | some '+' => (some '+', c.next)
    | some '-' => (some '-', c.next)
    | _ => (none, c)
  let digit (c : Cursor) : Except Complaint (Nat × Cursor) :=
    match c.peek 0 with
    | some x =>
      if x = '0' then
        .error (.ofCharacters start c.mark "found an indentation indicator equal to 0")
      else if '1' ≤ x && x ≤ '9' then .ok (x.toNat - 48, c.next)
      else .ok (0, c)
    | none => .ok (0, c)
  do
    let (chomp, c) := sign c
    let (increment, c) ← digit c
    let (chomp, c) := if chomp.isNone && increment ≠ 0 then sign c else (chomp, c)
    return (chomp, increment, c)

def block (c : Cursor) (literal : Bool) (outer : Int) : Except Complaint (List Char × Cursor) := do
  let start := c.mark
  let (chomp, increment, c) ← blockHeader c.next start
  let (_, c) := c.span isBlank
  let c := if c.peek 0 == some '#' then (c.span fun x => !isBreak x).2 else c
  if !c.atLineEnd then
    throw (.ofCharacters start c.mark "did not find expected comment or line break")
  let c := if c.rest.isEmpty then c else c.nextLine
  let known := if increment = 0 then 0 else (max outer 0).toNat + increment
  let (deepest, trail, c) ← emptyLines known start (c.rest.length + 1) 0 [] c
  let indent := if known = 0 then max (max deepest (outer + 1).toNat) 1 else known
  let (b, c) ← blockLines literal indent start (c.rest.length + 1) { trail } c
  let kept := if chomp == some '-' then [] else b.lead
  let all := if chomp == some '+' then b.trail else []
  return (b.text ++ kept ++ all, c)

end Cursor
end Stencil.Yaml
